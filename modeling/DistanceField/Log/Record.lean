import DistanceField.Log.Logger

/-! Records before they are written. -/
namespace DistanceField.Log

structure Record where
  level : Level
  message : Bytes
  attrs : List Attr := []

namespace Record

def trace (message : Bytes) (attrs : List Attr) : Record := ⟨Level.trace, message, attrs⟩

def debug (message : Bytes) (attrs : List Attr) : Record := ⟨Level.debug, message, attrs⟩

def info (message : Bytes) (attrs : List Attr) : Record := ⟨Level.info, message, attrs⟩

def warn (message : Bytes) (attrs : List Attr) : Record := ⟨Level.warn, message, attrs⟩

def error (message : Bytes) (attrs : List Attr) : Record := ⟨Level.error, message, attrs⟩

end Record

def Logger.write (l : Logger) (caller : Bytes) (r : Record) : Bytes :=
  l.record r.level caller r.message r.attrs

end DistanceField.Log
