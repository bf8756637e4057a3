/-
**Harness — the frame reader.**

`encodeFrame` and `FrameReader` of `ipc.ts`. The reader buffers what is not yet a whole frame. A lenient
one drops what it cannot read; a strict one reports it, once, and stops.

* `read_frames` — **what is written is read back, however the stream is cut**, and a strict reader
  reports every stream that is not whole frames of JSON texts.
-/

import Iterabase.Harness.ChildExit

namespace Iterabase.Harness.FrameReader

open Framing List
open ChildExit (maxFrameBytes)

/-! ### The code -/

/-- `JSON.stringify` to UTF-8, and `JSON.parse` of what is read as UTF-8. -/
structure Codec (J : Type) where
  stringify : J → List UInt8
  parse : List UInt8 → Option J
  parse_stringify : ∀ v, parse (stringify v) = some v

inductive Call (J : Type)
  | onFrame (v : J)
  | onError (reason : String)

/-- A `FrameReader` and the calls it has made. It has no buffer once it has stopped. -/
structure Reader (J : Type) where
  buf : Option (List UInt8) := some []
  calls : List (Call J) := []

variable {J : Type} (codec : Codec J) (strict : Bool)

def encodeFrame (v : J) : Except String (List UInt8) :=
  let json := codec.stringify v
  if maxFrameBytes < json.length then .error s!"IPC frame too large ({json.length} bytes)"
  else .ok (encode json)

/-- A body is parsed, and `rest` is what the loop makes of the bytes after it. -/
def onBody (parsed : Option J) (rest : Reader J) : Reader J :=
  match parsed with
  | some v => { rest with calls := .onFrame v :: rest.calls }
  | none => if strict then ⟨none, [.onError "frame body is not valid JSON"]⟩ else rest

/-- The loop of `feed` over the bytes it has. -/
def scan : List UInt8 → Reader J
  | a :: b :: c :: d :: rest =>
    let len := readLength a b c d
    if maxFrameBytes < len then
      if strict then ⟨none, [.onError s!"frame length prefix {len} exceeds MAX_FRAME_BYTES"]⟩
      else scan rest
    else if rest.length < len then ⟨some (a :: b :: c :: d :: rest), []⟩
    else onBody strict (codec.parse (rest.take len)) (scan (rest.drop len))
  | short => ⟨some short, []⟩
termination_by bytes => bytes.length
decreasing_by all_goals simp only [length_cons, length_drop]; omega

def Reader.feed (r : Reader J) (chunk : List UInt8) : Reader J :=
  match r.buf with
  | none => r
  | some buf =>
    let scanned := scan codec strict (buf ++ chunk)
    ⟨scanned.buf, r.calls ++ scanned.calls⟩

def Reader.end (r : Reader J) : Reader J :=
  match r.buf with
  | none => r
  | some buf =>
    if strict ∧ buf ≠ [] then ⟨none, r.calls ++ [.onError "truncated frame at end of stream"]⟩
    else { r with buf := some [] }

/-- The calls of a reader that is fed the chunks and then told of the end. -/
def read (chunks : List (List UInt8)) : List (Call J) :=
  ((chunks.foldl (Reader.feed codec strict) {}).end strict).calls

/-! ### Chunks -/

theorem onBody_feed (parsed : Option J) (r : Reader J) (more : List UInt8) :
    (onBody strict parsed r).feed codec strict more =
      onBody strict parsed (r.feed codec strict more) := by
  obtain ⟨_ | buf, calls⟩ := r <;> cases parsed <;> cases strict <;> rfl

/-- **The reader does not see where the stream is cut.** -/
theorem scan_append (bytes more : List UInt8) :
    scan codec strict (bytes ++ more) = (scan codec strict bytes).feed codec strict more := by
  fun_induction scan codec strict bytes with
  | case1 a b c d rest len long isStrict =>
    simp only [cons_append]
    rw [scan, if_pos long, if_pos isStrict]
    rfl
  | case2 a b c d rest len long lenient ih =>
    simp only [cons_append]
    rw [scan, if_pos long, if_neg lenient, ih]
  | case3 | case5 => rfl
  | case4 a b c d rest len inside whole ih =>
    have fits : len ≤ rest.length := Nat.le_of_not_lt whole
    simp only [cons_append]
    rw [scan, if_neg inside, if_neg (by simp only [length_append]; omega),
      take_append_of_le_length fits, drop_append_of_le_length fits, ih, onBody_feed]

theorem scan_nil : scan codec strict [] = {} := by
  rw [scan]
  exact nofun

theorem feed_chunks (bytes : List UInt8) (chunks : List (List UInt8)) :
    chunks.foldl (Reader.feed codec strict) (scan codec strict bytes) =
      scan codec strict (bytes ++ chunks.flatten) := by
  induction chunks generalizing bytes with
  | nil => simp
  | cons chunk chunks ih => rw [foldl_cons, ← scan_append, ih, flatten_cons, append_assoc]

theorem read_eq (chunks : List (List UInt8)) :
    read codec strict chunks = ((scan codec strict chunks.flatten).end strict).calls := by
  have fed := feed_chunks codec strict [] chunks
  rw [scan_nil, nil_append] at fed
  rw [read, fed]

/-! ### Frames -/

/-- The bytes are whole frames, and the values are what their bodies say. -/
inductive Framed : List UInt8 → List J → Prop
  | nil : Framed [] []
  | cons {body rest : List UInt8} {v : J} {vs : List J} : body.length ≤ maxFrameBytes →
      codec.parse body = some v → Framed rest vs → Framed (encode body ++ rest) (v :: vs)

variable {codec} {strict}

theorem scan_framed {bytes : List UInt8} {vs : List J} (framed : Framed codec bytes vs) :
    scan codec strict bytes = ⟨some [], vs.map .onFrame⟩ := by
  induction framed with
  | nil => exact scan_nil codec strict
  | @cons body rest v vs small parsed framed ih =>
    have bound : body.length < 2 ^ 32 := Nat.lt_of_le_of_lt small (by decide)
    simp only [encode, header, cons_append, nil_append]
    rw [scan, readLength_header bound, if_neg (by omega), if_neg (by simp), take_left,
      drop_left, parsed, ih]
    rfl

theorem read_framed {chunks : List (List UInt8)} {vs : List J}
    (framed : Framed codec chunks.flatten vs) : read codec strict chunks = vs.map .onFrame := by
  rw [read_eq, scan_framed framed, Reader.end]
  simp

theorem encoded_framed {vs : List J} {frames : List (List UInt8)}
    (encoded : List.Forall₂ (fun v frame => encodeFrame codec v = .ok frame) vs frames) :
    Framed codec frames.flatten vs := by
  induction encoded with
  | nil => exact .nil
  | @cons v frame vs frames encoded _ ih =>
    dsimp only [encodeFrame] at encoded
    split at encoded
    · cases encoded
    · rename_i small
      cases encoded
      exact .cons (Nat.le_of_not_lt small) (codec.parse_stringify v) ih

/-- **What a strict reader has made of a stream**: the values of its first frames, and then an error or
bytes that are not yet a frame. -/
theorem scan_strict (codec : Codec J) (bytes : List UInt8) : ∃ before rest vs, bytes = before ++ rest ∧
    Framed codec before vs ∧ (scan codec true bytes = ⟨some rest, vs.map .onFrame⟩ ∨
      ∃ reason, scan codec true bytes = ⟨none, vs.map .onFrame ++ [.onError reason]⟩) := by
  fun_induction scan codec true bytes with
  | case1 a b c d rest len long _ => exact ⟨[], _, [], rfl, .nil, .inr ⟨_, rfl⟩⟩
  | case2 a b c d rest len long lenient ih => exact absurd rfl lenient
  | case3 | case5 => exact ⟨[], _, [], rfl, .nil, .inl rfl⟩
  | case4 a b c d rest len inside whole ih =>
    cases parsed : codec.parse (rest.take len) with
    | none => exact ⟨[], _, [], rfl, .nil, .inr ⟨_, rfl⟩⟩
    | some v =>
      obtain ⟨before, left, vs, cut, framed, scanned⟩ := ih
      have fits : (rest.take len).length = len := length_take_of_le (Nat.le_of_not_lt whole)
      refine ⟨encode (rest.take len) ++ before, left, v :: vs, ?_, .cons (by omega) parsed framed, ?_⟩
      · rw [append_assoc, ← cut, encode, fits, header_readLength, append_assoc,
          take_append_drop]
        rfl
      · rcases scanned with scanned | ⟨reason, scanned⟩
        · exact .inl (by rw [scanned]; rfl)
        · exact .inr ⟨reason, by rw [scanned]; rfl⟩

/-- **The round trip of the frames.** Values that `encodeFrame` takes are read back in order and with no
error, by a lenient and by a strict reader, wherever the stream is cut; and so is every stream of whole
frames of JSON texts. Of any other a strict reader makes the values of its first frames and then one error. -/
theorem read_frames (codec : Codec J) (chunks : List (List UInt8)) :
    (∀ vs frames, List.Forall₂ (fun v frame => encodeFrame codec v = .ok frame) vs frames →
      chunks.flatten = frames.flatten → ∀ strict, read codec strict chunks = vs.map .onFrame) ∧
    (∀ vs, Framed codec chunks.flatten vs → ∀ strict, read codec strict chunks = vs.map .onFrame) ∧
    ((∀ vs, ¬ Framed codec chunks.flatten vs) → ∃ before rest vs reason,
      chunks.flatten = before ++ rest ∧ Framed codec before vs ∧
      read codec true chunks = vs.map .onFrame ++ [.onError reason]) := by
  refine ⟨?_, fun vs framed strict => read_framed framed, ?_⟩
  · intro vs frames encoded same strict
    exact read_framed (same ▸ encoded_framed encoded)
  · intro other
    obtain ⟨before, rest, vs, cut, framed, scanned⟩ := scan_strict codec chunks.flatten
    refine ⟨before, rest, vs, ?_⟩
    rcases scanned with scanned | ⟨reason, scanned⟩
    · have left : rest ≠ [] := by
        rintro rfl
        rw [append_nil] at cut
        exact other vs (cut ▸ framed)
      refine ⟨"truncated frame at end of stream", cut, framed, ?_⟩
      rw [read_eq, scanned, Reader.end]
      simp [left]
    · refine ⟨reason, cut, framed, ?_⟩
      rw [read_eq, scanned]
      rfl

/-- The JSON texts of the two truth values; white space before them is skipped. -/
def truthValues : Codec Bool where
  stringify v := if v then [116, 114, 117, 101] else [102, 97, 108, 115, 101]
  parse body :=
    let text := body.dropWhile (· = 32)
    if text = [116, 114, 117, 101] then some true
    else if text = [102, 97, 108, 115, 101] then some false
    else none
  parse_stringify := by decide

theorem read_frames_cut :
    read truthValues true [[0, 0], [0, 4, 116], [114, 117, 101]] = [.onFrame true] ∧
    ∃ vs : List Bool, ∃ reason, read truthValues true [[7]] = vs.map .onFrame ++ [.onError reason] := by
  refine ⟨(read_frames truthValues [[0, 0], [0, 4, 116], [114, 117, 101]]).1 [true]
    [[0, 0, 0, 4, 116, 114, 117, 101]] (.cons (by decide) .nil) rfl true, ?_⟩
  have other : ∀ vs, ¬ Framed truthValues [7] vs := by
    intro vs framed
    have same : scan truthValues true [7] = _ := scan_framed framed
    rw [scan] at same
    · cases same
    · exact nofun
  obtain ⟨_, _, vs, reason, _, _, same⟩ := (read_frames truthValues [[7]]).2.2 other
  exact ⟨vs, reason, same⟩

/-- A frame with a blank before its JSON text is read without an error. -/
theorem strict_reads_other : ∃ chunks, read truthValues true chunks = [.onFrame true] ∧
    ∀ vs frames, List.Forall₂ (fun v frame => encodeFrame truthValues v = .ok frame) vs frames →
      chunks.flatten ≠ frames.flatten := by
  refine ⟨[encode [32, 116, 114, 117, 101]], ?_, ?_⟩
  · have framed : Framed truthValues (encode [32, 116, 114, 117, 101] ++ []) [true] :=
      .cons (by decide) rfl .nil
    have whole : Framed truthValues [encode [32, 116, 114, 117, 101]].flatten [true] := framed
    exact read_framed whole
  · intro vs frames encoded same
    cases encoded with
    | nil => cases same
    | @cons v frame vs frames first _ =>
      cases v <;> cases first <;> cases same

end Iterabase.Harness.FrameReader
