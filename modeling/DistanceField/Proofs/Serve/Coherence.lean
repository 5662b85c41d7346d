import DistanceField.Proofs.Compile.Sealed
import DistanceField.Proofs.Serve.Tag
import DistanceField.Serve.Server

/-! A client that asks for the code again and again. It keeps the last code it was sent, with its
tag, and asks for the code unless it has that tag. Whatever happens to the session in between, it then
has the current code after each answer, but for those that say that there is none yet. -/
namespace DistanceField

namespace Serve

namespace Server

/-- The server after a call to its session, which tells the metrics of its update. -/
def call (v : Server) (c : Call) : Server :=
  let (u, session) := v.session.call c
  let v := { v with session := session }
  u.elim v v.observe

theorem call_session (v : Server) (c : Call) : (v.call c).session = (v.session.call c).2 := by
  simp only [call]
  cases (v.session.call c).1 <;> rfl

end Server

structure Copy where
  body : Bytes
  tag : Bytes

structure Scene where
  server : Server
  copy : Option Copy := none

inductive Event where
  | call (c : Call)
  | get

def Event.call? : Event → Option Call
  | .call c => some c
  | .get => none

def calls (es : List Event) : List Call := es.filterMap Event.call?

/-- A request for the code, unless it is the one that the client has. -/
def request (copy : Option Copy) : Request :=
  ⟨"GET", "/de.glsl", copy.toList.map fun c => ("If-None-Match", c.tag)⟩

def Response.header? (r : Response) (name : Bytes) : Option Bytes := r.headers.lookup name

def kept (copy : Option Copy) (r : Response) : Option Copy :=
  if r.status = 200 then some ⟨r.body, (r.header? "Etag").getD []⟩ else copy

namespace Scene

def answer (w : Scene) : Response := (w.server.handle (request w.copy)).1

def step (w : Scene) : Event → Scene
  | .call c => { w with server := w.server.call c }
  | .get => ⟨(w.server.handle (request w.copy)).2, kept w.copy w.answer⟩

def run (w : Scene) (es : List Event) : Scene := es.foldl step w

theorem run_append (w : Scene) (es fs : List Event) : w.run (es ++ fs) = (w.run es).run fs :=
  List.foldl_append

theorem step_session (w : Scene) (e : Event) :
    (w.step e).server.session = w.server.session.run e.call?.toList := by
  cases e with
  | get => rfl
  | call c => exact w.server.call_session c

theorem run_session (w : Scene) (es : List Event) :
    (w.run es).server.session = w.server.session.run (calls es) := by
  induction es generalizing w with
  | nil => rfl
  | cons e es ih =>
    have split : calls (e :: es) = e.call?.toList ++ calls es := List.filterMap_append (l := [e])
    have later : w.run (e :: es) = (w.step e).run es := rfl
    rw [split, later, ih, step_session, Session.run, Session.run, Session.run, List.foldl_append]

theorem header_request (copy : Option Copy) :
    (request copy).header "If-None-Match" = copy.elim [] Copy.tag := by
  cases copy with
  | none => rfl
  | some c => simp [Request.header, request, Letter.same]

theorem answer_eq (w : Scene) :
    w.answer = codeResponse w.server.session.state "GET" (w.copy.elim [] Copy.tag) := by
  have known : methods.contains (request w.copy).method = true := rfl
  have route : Route.ofPath? w.server.profiler (request w.copy).path = some .code := rfl
  have reads : ((request w.copy).method == Bytes.ofString "GET") = true := rfl
  rw [answer, Server.handle, Server.respond, known, route, ← header_request]
  simp only [reads]
  rfl

/-- All answers that there are to the request of a client. -/
theorem answer_cases (w : Scene) :
    (w.server.session.current = none ∧ w.answer.status = 503) ∨
    ∃ r, w.server.session.current = some r ∧
      (Etag.isListed (w.copy.elim [] Copy.tag) r.etag = true ∧ w.answer.status = 304 ∨
        Etag.isListed (w.copy.elim [] Copy.tag) r.etag = false ∧ w.answer.status = 200 ∧
          w.answer.body = r.code ∧ w.answer.header? "Etag" = some r.etag ∧
          w.answer.header? "Content-Length" = some (Bytes.ofNat r.code.length)) := by
  rw [answer_eq, codeResponse, Session.current]
  cases w.server.session.state.result with
  | none => exact .inl ⟨rfl, rfl⟩
  | some r =>
    refine .inr ⟨r, rfl, ?_⟩
    cases listed : Etag.isListed (w.copy.elim [] Copy.tag) r.etag with
    | true => exact .inl ⟨rfl, by simp [listed]⟩
    | false =>
      refine .inr ⟨rfl, ?_⟩
      simp only [listed]
      exact ⟨rfl, rfl, rfl, rfl⟩

end Scene

def Held (rs : List Result) (copy : Option Copy) : Prop :=
  ∀ c, copy = some c → ∃ r ∈ rs, c = ⟨r.code, r.etag⟩

def Apart (codes : List Bytes) : Prop :=
  ∀ a ∈ codes, ∀ b ∈ codes, Hash.hash a = Hash.hash b → a = b

instance (codes : List Bytes) : Decidable (Apart codes) :=
  inferInstanceAs (Decidable (∀ a ∈ codes, ∀ b ∈ codes, Hash.hash a = Hash.hash b → a = b))

theorem Held.listed_iff {rs : List Result} {copy : Option Copy} {r : Result} (held : Held rs copy)
    (closed : ∀ r ∈ rs, r.Sealed) (apart : Apart (rs.map Result.code)) (member : r ∈ rs) :
    Etag.isListed (copy.elim [] Copy.tag) r.etag = true ↔ copy.map Copy.body = some r.code := by
  cases copy with
  | none => simp [Etag.isListed]
  | some c =>
    obtain ⟨r', also, rfl⟩ := held c rfl
    have hashes : r'.hash = r.hash ↔ r'.code = r.code := by
      rw [closed r' also, closed r member]
      exact ⟨apart _ (List.mem_map_of_mem also) _ (List.mem_map_of_mem member), congrArg _⟩
    simpa [hashes] using Etag.isListed_etag r' r

theorem Scene.get_in_step {w : Scene} {rs : List Result} (held : Held rs w.copy)
    (closed : ∀ r ∈ rs, r.Sealed) (apart : Apart (rs.map Result.code))
    (known : ∀ r, w.server.session.current = some r → r ∈ rs) :
    (w.answer.status = 503 ↔ w.server.session.current = none) ∧
    (w.answer.status = 304 ↔
      ∃ r, w.server.session.current = some r ∧ w.copy.map Copy.body = some r.code) ∧
    (w.answer.status ≠ 503 → w.answer.status ≠ 304 → ∃ r, w.server.session.current = some r ∧
      w.answer.status = 200 ∧ w.answer.body = r.code ∧ w.answer.header? "Etag" = some r.etag ∧
      w.answer.header? "Content-Length" = some (Bytes.ofNat r.code.length)) ∧
    (w.answer.status ≠ 503 → ∃ r, w.server.session.current = some r ∧
      (w.step .get).copy.map Copy.body = some r.code) := by
  have keeps : (w.step .get).copy = kept w.copy w.answer := rfl
  rcases w.answer_cases with ⟨none, status⟩ | ⟨r, is, ⟨listed, status⟩ | ⟨unlisted, status, sent⟩⟩
  · exact ⟨by simp [status, none], by simp [status, none], (absurd status ·), (absurd status ·)⟩
  · have same := (held.listed_iff closed apart (known r is)).mp listed
    refine ⟨by simp [status, is], by simp [status, is, same],
      fun _ other => absurd status other, ?_⟩
    intro _
    refine ⟨r, is, ?_⟩
    rw [keeps, kept, if_neg (by simp [status])]
    exact same
  · have other : w.copy.map Copy.body ≠ some r.code := by
      rw [Ne, ← held.listed_iff closed apart (known r is), unlisted]
      exact Bool.false_ne_true
    refine ⟨by simp [status, is], by simpa [status, is] using other,
      fun _ _ => ⟨r, is, status, sent⟩, ?_⟩
    intro _
    refine ⟨r, is, ?_⟩
    rw [keeps, kept, if_pos status, sent.1]
    rfl

def Scene.start (server : Server) (strict : Bool) (cache : Option Cache) : Scene :=
  ⟨{ server with session := .fresh strict cache }, none⟩

def results (strict : Bool) (cache : Option Cache) (es : List Event) : List Result :=
  ((Session.fresh strict cache).history (calls es)).filterMap Notice.success?

theorem results_append (strict : Bool) (cache : Option Cache) (es fs : List Event) :
    results strict cache es ⊆ results strict cache (es ++ fs) := by
  unfold results calls
  rw [List.filterMap_append, Session.history_append, List.filterMap_append]
  exact List.subset_append_left ..

theorem accepted_subset (h : List Notice) : Notice.accepted h ⊆ h := by
  intro n found
  obtain ⟨i, -, taken⟩ := List.mem_filterMap.mp found
  exact List.mem_of_getElem? (Option.filter_eq_some_iff.mp taken).1

section Runs

variable (server : Server) (strict : Bool) (cache : Option Cache)

theorem run_reflected (es : List Event) :
    Reflects ((Session.fresh strict cache).history (calls es))
      ((Scene.start server strict cache).run es).server.session.state := by
  rw [Scene.run_session]
  exact Session.run_reflects strict cache (calls es)

theorem current_mem {es : List Event} {r : Result}
    (current : ((Scene.start server strict cache).run es).server.session.current = some r) :
    r ∈ results strict cache es := by
  rw [Session.current, (run_reflected server strict cache es).result] at current
  obtain ⟨n, told, good⟩ := List.mem_filterMap.mp (List.mem_of_getLast? current)
  exact List.mem_filterMap.mpr ⟨n, accepted_subset _ told, good⟩

/-- Along a run the copy of the client stays one of the results so far. -/
theorem run_held (es : List Event) :
    Held (results strict cache es) ((Scene.start server strict cache).run es).copy := by
  induction es using List.reverseRecOn with
  | nil =>
    intro c copied
    cases copied
  | append_singleton es e ih =>
    have more := results_append strict cache es [e]
    intro c copied
    rw [Scene.run_append] at copied
    cases e with
    | call call =>
      obtain ⟨r, member, same⟩ := ih c copied
      exact ⟨r, more member, same⟩
    | get =>
      change kept _ _ = some c at copied
      unfold kept at copied
      split at copied
      · rename_i sent
        rcases Scene.answer_cases ((Scene.start server strict cache).run es) with
          ⟨-, other⟩ | ⟨r, current, ⟨-, other⟩ | ⟨-, -, body, tag, -⟩⟩
        · cases sent.symm.trans other
        · cases sent.symm.trans other
        · rw [body, tag] at copied
          cases copied
          exact ⟨r, more (current_mem server strict cache current), rfl⟩
      · obtain ⟨r, member, same⟩ := ih c copied
        exact ⟨r, more member, same⟩

theorem current_none_iff (es : List Event) :
    ((Scene.start server strict cache).run es).server.session.current = none ↔
      ∀ n ∈ Notice.accepted ((Session.fresh strict cache).history (calls es)),
        n.success? = none := by
  rw [Session.current, (run_reflected server strict cache es).result, List.getLast?_eq_none_iff,
    List.filterMap_eq_nil_iff]

end Runs

/-- A client that asks for the code unless it has it stays in step with the session, whatever
happens between its requests, as long as the hash tells the codes of the run apart. It is told that
there is no code only while no result was accepted, and that it has the code only when it has;
otherwise it is sent the code. So it has the current code after every other answer. -/
theorem client_in_step (server : Server) (strict : Bool) (cache : Option Cache) (es : List Event)
    (stored : ∀ c, cache = some c → c.Sealed) (reported : ∀ c, .call c ∈ es → c.Sealed)
    (apart : Apart ((results strict cache es).map Result.code)) :
    ∀ before, before ++ [.get] <+: es →
      let w := (Scene.start server strict cache).run before
      let current := w.server.session.current
      (w.answer.status = 503 ↔ ∀ n ∈ Notice.accepted
        ((Session.fresh strict cache).history (calls before)), n.success? = none) ∧
      (w.answer.status = 304 ↔ ∃ r, current = some r ∧ w.copy.map Copy.body = some r.code) ∧
      (w.answer.status ≠ 503 → w.answer.status ≠ 304 → ∃ r, current = some r ∧
        w.answer.status = 200 ∧ w.answer.body = r.code ∧ w.answer.header? "Etag" = some r.etag ∧
        w.answer.header? "Content-Length" = some (Bytes.ofNat r.code.length)) ∧
      (w.answer.status ≠ 503 → ∃ r, current = some r ∧
        (w.step .get).copy.map Copy.body = some r.code) := by
  rintro before ⟨later, rfl⟩ w current
  have fewer : results strict cache before ⊆ results strict cache (before ++ [.get] ++ later) := by
    rw [List.append_assoc]
    exact results_append strict cache before _
  have closed : ∀ r ∈ results strict cache before, r.Sealed := by
    refine Session.history_sealed (s := .fresh strict cache) stored fun c found => ?_
    obtain ⟨e, member, is⟩ := List.mem_filterMap.mp found
    cases e with
    | get => cases is
    | call d =>
      cases is
      exact reported c (by simp [member])
  have separate : Apart ((results strict cache before).map Result.code) := fun a here b also =>
    apart a (List.map_subset _ fewer here) b (List.map_subset _ fewer also)
  have step := Scene.get_in_step (run_held server strict cache before) closed separate
    fun r is => current_mem server strict cache is
  rw [current_none_iff] at step
  exact step

def resultOf (code : Bytes) : Result := ⟨⟨[], .none⟩, default, code, [], Hash.hash code, 0⟩

def visit : List Event :=
  [.get, .call .begin, .call (.finish 1 [] (some (resultOf "a")) none), .get,
    .call (.submit false "("), .get, .call (.finish 9 [] (some (resultOf "b")) none), .get]

def visited : Scene := .start { session := {} } false (some (.ofLimit 1))

theorem visit_in_step :
    Apart ((results false (some (.ofLimit 1)) visit).map Result.code) ∧
    (visited.run (visit.take 5)).server.session.state.ok = false ∧
    (visited.run (visit.take 5)).answer.status = 304 ∧
    (visited.run visit).copy.map Copy.body = some "b" := by
  have apart : Apart ((results false (some (.ofLimit 1)) visit).map Result.code) := by
    decide +kernel
  have stored : ∀ c, some (Cache.ofLimit 1) = some c → c.Sealed := by
    rintro _ ⟨⟩
    exact Cache.sealed_ofLimit 1 id
  have reported : ∀ c, .call c ∈ visit → c.Sealed := by
    intro c found
    simp only [visit, List.mem_cons, Event.call.injEq, reduceCtorEq, List.not_mem_nil, false_or,
      or_false] at found
    rcases found with rfl | rfl | rfl | rfl
    · trivial
    · rfl
    · trivial
    · rfl
  have all := client_in_step { session := {} } false (some (.ofLimit 1)) visit stored reported apart
  refine ⟨apart, by decide +kernel, ?_, ?_⟩
  · obtain ⟨-, known, -⟩ := all (visit.take 5) ⟨visit.drop 6, rfl⟩
    have code : (visited.run (visit.take 5)).server.session.current.map Result.code = some "a" := by
      decide +kernel
    obtain ⟨r, current, same⟩ := Option.map_eq_some_iff.mp code
    refine known.mpr ⟨r, current, ?_⟩
    rw [same]
    decide +kernel
  · obtain ⟨-, -, -, last⟩ := all (visit.take 7) ⟨[], rfl⟩
    obtain ⟨r, current, copied⟩ := last (by decide +kernel)
    have code : (visited.run (visit.take 7)).server.session.current.map Result.code = some "b" := by
      decide +kernel
    rw [visited, current] at code
    exact copied.trans code

end Serve

end DistanceField
