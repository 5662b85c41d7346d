import DistanceField.Text.Letter

/-! Entity tags in conditional requests. -/
namespace DistanceField.Etag

/-- An entry of a list of tags without its blanks and its mark of weakness. -/
def bare (entry : Bytes) : Bytes :=
  let e := Letter.trim entry
  (Bytes.after? "W/" e).getD e

/-- Whether a list of tags names the tag; a star names all. -/
def isListed (header etag : Bytes) : Bool :=
  !header.isEmpty && (Bytes.split 44 header).any fun entry =>
    bare entry == Bytes.ofString "*" || bare entry == etag

end DistanceField.Etag
