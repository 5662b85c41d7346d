import DistanceField.Compile.Result
import DistanceField.Proofs.Text.Decoding
import DistanceField.Proofs.Text.Separators
import DistanceField.Serve.Etag

/-! The tags of results. They have no commas, blanks or marks of weakness in them, so a list that
holds one tag names that tag alone; and different hashes have different tags. -/
namespace DistanceField

def value36 (b : UInt8) : Nat := if b < 58 then b.toNat - 48 else b.toNat - 87

def read36 (text : Bytes) : Nat := text.foldl (fun n b => n * 36 + value36 b) 0

theorem value36_digit36 : ∀ n < 36, value36 (digit36 n) = n := by decide

theorem digit36_plain : ∀ n < 36, digit36 n < 128 ∧ digit36 n ≠ 44 := by decide

theorem read36_base36 (n : Nat) : read36 (base36 n) = n := by
  unfold read36
  fun_induction base36 n with
  | case1 n small => simp [value36_digit36 n small]
  | case2 n large ih =>
    rw [List.foldl_append, ih, List.foldl_cons, List.foldl_nil,
      value36_digit36 _ (Nat.mod_lt _ (by omega))]
    omega

theorem base36_digits (n : Nat) : ∀ b ∈ base36 n, ∃ k < 36, b = digit36 k := by
  fun_induction base36 n with
  | case1 n small =>
    intro b found
    exact ⟨n, small, List.mem_singleton.mp found⟩
  | case2 n large ih =>
    intro b found
    rcases List.mem_append.mp found with high | low
    · exact ih b high
    · exact ⟨n % 36, Nat.mod_lt _ (by omega), List.mem_singleton.mp low⟩

theorem base36_plain (n : Nat) : ∀ b ∈ base36 n, b < 128 ∧ b ≠ 44 := by
  intro b found
  obtain ⟨k, small, rfl⟩ := base36_digits n b found
  exact digit36_plain k small

namespace Result

theorem etag_eq (r : Result) : r.etag = 34 :: (base36 r.hash.toNat ++ [34]) := rfl

theorem etag_plain (r : Result) : ∀ b ∈ r.etag, b < 128 ∧ b ≠ 44 := by
  intro b found
  rw [etag_eq] at found
  rcases List.mem_cons.mp found with rfl | found
  · decide
  · rcases List.mem_append.mp found with digit | quote
    · exact base36_plain _ b digit
    · rw [List.mem_singleton.mp quote]
      decide

theorem etag_inj {r r' : Result} (same : r.etag = r'.etag) : r.hash = r'.hash := by
  rw [etag_eq, etag_eq, List.cons_inj_right, List.append_cancel_right_eq] at same
  have back := congrArg read36 same
  rw [read36_base36, read36_base36] at back
  exact UInt64.toNat_inj.mp back

end Result

namespace Etag

theorem bare_etag (r : Result) : bare r.etag = r.etag := by
  have trimmed : Letter.trim r.etag = r.etag := by
    apply Letter.trim_marked (fun b found => (r.etag_plain b found).1)
    · decide
    · decide
  have strong : Bytes.after? "W/" r.etag = none := rfl
  simp [bare, trimmed, strong]

theorem isListed_etag (r r' : Result) : isListed r.etag r'.etag = true ↔ r.hash = r'.hash := by
  have single : Bytes.split 44 r.etag = [r.etag] :=
    Bytes.split_none fun b found => (r.etag_plain b found).2
  have star : (r.etag == Bytes.ofString "*") = false := rfl
  have filled : r.etag.isEmpty = false := rfl
  have same : r.etag = r'.etag ↔ r.hash = r'.hash := by
    constructor
    · exact Result.etag_inj
    · intro like
      rw [Result.etag_eq, Result.etag_eq, like]
  simp [isListed, single, bare_etag, star, filled, same]

end Etag

end DistanceField
