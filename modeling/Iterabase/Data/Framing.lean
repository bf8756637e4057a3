/-
**Length-prefixed frames in a byte stream.**

A frame is its body after four bytes that give its length, most significant first. A reader takes
frames off the front of what it has buffered and keeps a frame that is not yet whole; a length over
the limit is skipped, without its body.
-/

import Mathlib

namespace Iterabase.Framing

open List

variable {limit : Nat}

def header (length : Nat) : List UInt8 :=
  [.ofNat (length / 16777216), .ofNat (length / 65536), .ofNat (length / 256), .ofNat length]

def readLength (a b c d : UInt8) : Nat :=
  ((a.toNat * 256 + b.toNat) * 256 + c.toNat) * 256 + d.toNat

def encode (body : List UInt8) : List UInt8 := header body.length ++ body

/-- The bodies of the whole frames, and the bytes that are left over. -/
def deframe (limit : Nat) : List UInt8 → List (List UInt8) × List UInt8
  | a :: b :: c :: d :: rest =>
    if limit < readLength a b c d then deframe limit rest
    else if rest.length < readLength a b c d then ([], a :: b :: c :: d :: rest)
    else
      (rest.take (readLength a b c d) :: (deframe limit (rest.drop (readLength a b c d))).1,
        (deframe limit (rest.drop (readLength a b c d))).2)
  | short => ([], short)
termination_by bytes => bytes.length
decreasing_by all_goals simp only [length_cons, length_drop]; omega

/-- **The reader does not see where the stream is cut.** -/
theorem deframe_append (bytes more : List UInt8) :
    deframe limit (bytes ++ more) =
      ((deframe limit bytes).1 ++ (deframe limit ((deframe limit bytes).2 ++ more)).1,
        (deframe limit ((deframe limit bytes).2 ++ more)).2) := by
  fun_induction deframe limit bytes with
  | case1 a b c d rest long ih =>
    rw [← ih]
    simp only [cons_append]
    rw [deframe, if_pos long]
  | case2 => rfl
  | case3 a b c d rest inside whole ih =>
    have fits : readLength a b c d ≤ rest.length := Nat.le_of_not_lt whole
    simp only [cons_append]
    rw [deframe, if_neg inside, if_neg (by simp only [length_append]; omega),
      take_append_of_le_length fits, drop_append_of_le_length fits, ih]
  | case4 => rfl

theorem readLength_header {length : Nat} (small : length < 2 ^ 32) :
    readLength (.ofNat (length / 16777216)) (.ofNat (length / 65536)) (.ofNat (length / 256))
    (.ofNat length) = length := by
  simp only [readLength, UInt8.toNat_ofNat']
  omega

theorem header_readLength (a b c d : UInt8) : header (readLength a b c d) = [a, b, c, d] := by
  have bounds := And.intro (And.intro a.toNat_lt b.toNat_lt) (And.intro c.toNat_lt d.toNat_lt)
  simp only [header, readLength, List.cons.injEq, ← UInt8.toNat_inj, UInt8.toNat_ofNat', and_true]
  refine ⟨?_, ?_, ?_, ?_⟩ <;> omega

/-- **A written stream is read back.** -/
theorem deframe_encode (bounded : limit < 2 ^ 32) {bodies : List (List UInt8)}
    (small : ∀ body ∈ bodies, body.length ≤ limit) :
    deframe limit (bodies.map encode).flatten = (bodies, []) := by
  induction bodies with
  | nil => rw [map_nil, flatten_nil, deframe]; exact nofun
  | cons body bodies ih =>
    obtain ⟨fits, small⟩ := forall_mem_cons.mp small
    simp only [map_cons, flatten_cons, encode, header, cons_append, nil_append]
    rw [deframe, readLength_header (by omega), if_neg (by omega),
      if_neg (by simp only [length_append]; omega), take_left,
      drop_left, ih small]

end Iterabase.Framing
