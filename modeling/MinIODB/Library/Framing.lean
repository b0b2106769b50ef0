import Mathlib.Tactic

/-!
# Streams of self-delimiting frames

A decoder takes one frame off the front of its input. Scanning repeats it until
the first error. For a code whose decoder fails on every proper prefix of an
encoding, scanning a stream that was cut at an arbitrary position returns exactly
the frames that lie wholly before the cut.
-/
namespace Framing
open List

variable {β ε α : Type*}

/-- One frame and the input that follows it, or the reason for stopping. -/
abbrev Decoder (β ε α : Type*) := List β → Except ε (α × List β)

/-- A sequence of fallible steps succeeds only through a first success. -/
lemma bind_ok.{u, v} {ε : Type u} {γ δ : Type v} {x : Except ε γ} {f : γ → Except ε δ} {d : δ}
    (h : x >>= f = .ok d) : ∃ c, x = .ok c ∧ f c = .ok d := by
  cases x with
  | error => cases h
  | ok c => exact ⟨c, rfl, h⟩

/-- Every decoded frame uses up some of the input. -/
def Consuming (decode : Decoder β ε α) : Prop :=
  ∀ bs a rest, decode bs = .ok (a, rest) → rest.length < bs.length

/-- Decode until the first error, which is returned with the frames before it.
The error is missing only when the fuel runs out. -/
def scan (decode : Decoder β ε α) : ℕ → List β → List α × Option ε
  | 0, _ => ([], none)
  | fuel + 1, bs =>
    match decode bs with
    | .error e => ([], some e)
    | .ok (a, rest) => (a :: (scan decode fuel rest).1, (scan decode fuel rest).2)

/-- Scanning with enough fuel for every frame of the input. -/
def frames (decode : Decoder β ε α) (bs : List β) : List α × Option ε :=
  scan decode (bs.length + 1) bs

variable {decode : Decoder β ε α}

section
variable (hc : Consuming decode)
include hc

lemma scan_fuel (f g : ℕ) (bs : List β)
    (hf : bs.length < f) (hg : bs.length < g) : scan decode f bs = scan decode g bs := by
  induction f generalizing g bs with
  | zero => omega
  | succ f ih =>
    cases g with
    | zero => omega
    | succ g =>
      cases h : decode bs with
      | error => simp [scan, h]
      | ok p =>
        obtain ⟨a, rest⟩ := p
        have hlt := hc bs a rest h
        simp [scan, h, ih g rest (by omega) (by omega)]

/-- The loop equation of the scan: no fuel is left to speak of. -/
lemma frames_eq (bs : List β) : frames decode bs = match decode bs with
      | .error e => ([], some e)
      | .ok (a, rest) => (a :: (frames decode rest).1, (frames decode rest).2) := by
  rw [frames, scan]
  cases h : decode bs with
  | error => rfl
  | ok p =>
    obtain ⟨a, rest⟩ := p
    have hlt := hc bs a rest h
    simp [frames, scan_fuel hc bs.length (rest.length + 1) rest hlt (by omega)]

/-- A scan always ends by the error of a decoding step. -/
lemma frames_stops (bs : List β) : (frames decode bs).2.isSome := by
  induction hn : bs.length using Nat.strong_induction_on generalizing bs with
  | _ n ih =>
    rw [frames_eq hc]
    cases h : decode bs with
    | error => rfl
    | ok p =>
      obtain ⟨a, rest⟩ := p
      have hlt := hc bs a rest h
      exact ih rest.length (by omega) rest rfl

end

/-- A writer and a reader of frames. The reader undoes the writer in front of any
tail, and rejects every encoding that has lost bytes at its end. -/
structure FrameCode (β ε α : Type*) where
  encode : α → List β
  decode : Decoder β ε α
  valid : α → Prop
  consuming : Consuming decode
  decode_encode : ∀ a tail, valid a → decode (encode a ++ tail) = .ok (a, tail)
  decode_torn : ∀ a n, valid a → n < (encode a).length →
    ∃ e, decode ((encode a).take n) = .error e

namespace FrameCode

variable (code : FrameCode β ε α)

/-- The bytes of a sequence of frames. -/
def stream (as : List α) : List β := as.flatMap code.encode

@[simp] theorem stream_nil : code.stream [] = [] := rfl

@[simp] theorem stream_cons (a : α) (as : List α) :
    code.stream (a :: as) = code.encode a ++ code.stream as := rfl

@[simp] theorem stream_append (as bs : List α) :
    code.stream (as ++ bs) = code.stream as ++ code.stream bs := by simp [stream]

/-- How many leading frames have all their bytes among the first `n`. -/
def wholeCount : List α → ℕ → ℕ
  | [], _ => 0
  | a :: as, n =>
    if (code.encode a).length ≤ n then wholeCount as (n - (code.encode a).length) + 1 else 0

/-- Frame `i` is counted exactly when its last byte lies before the cut. -/
lemma lt_wholeCount_iff (as : List α) (n i : ℕ) (hi : i < as.length) :
    i < code.wholeCount as n ↔ (code.stream (as.take (i + 1))).length ≤ n := by
  induction as generalizing n i with
  | nil => simp at hi
  | cons a as ih =>
    by_cases hn : (code.encode a).length ≤ n
    · cases i with
      | zero => simp [wholeCount, hn]
      | succ i =>
        have h := ih (n - (code.encode a).length) i (by simpa using hi)
        simp only [wholeCount, if_pos hn, take_succ_cons, stream_cons, length_append]
        omega
    · simp only [wholeCount, if_neg hn, take_succ_cons, stream_cons, length_append]
      omega

/-- A cut inside the last frame leaves all frames before it. -/
lemma wholeCount_concat (as : List α) {a : α} {n : ℕ} (hn : n < (code.encode a).length) :
    code.wholeCount (as ++ [a]) ((code.stream as).length + n) = as.length := by
  induction as with
  | nil => simp [wholeCount, hn]
  | cons b as ih =>
    have hrest : (code.stream (b :: as)).length + n - (code.encode b).length =
        (code.stream as).length + n := by
      rw [stream_cons, length_append]
      omega
    rw [cons_append, wholeCount, if_pos, hrest, ih, length_cons]
    rw [stream_cons, length_append]
    omega

lemma frames_nil : (frames code.decode []).1 = [] := by
  rw [frames_eq code.consuming]
  cases h : code.decode [] with
  | error => rfl
  | ok p => exact absurd (code.consuming [] p.1 p.2 h) (Nat.not_lt_zero _)

/-- Scanning a stream cut after `n` elements returns the frames before the cut. -/
lemma frames_take (as : List α) (n : ℕ) (hv : ∀ a ∈ as, code.valid a) :
    (frames code.decode ((code.stream as).take n)).1 = as.take (code.wholeCount as n) := by
  induction as generalizing n with
  | nil => simpa using code.frames_nil
  | cons a as ih =>
    have ha := hv a (by simp)
    rw [frames_eq code.consuming, stream_cons]
    by_cases hn : (code.encode a).length ≤ n
    · rw [take_append, take_of_length_le hn, code.decode_encode a _ ha, wholeCount,
        if_pos hn, take_succ_cons]
      exact congrArg (a :: ·) (ih _ (fun b hb => hv b (by simp [hb])))
    · obtain ⟨e, he⟩ := code.decode_torn a n ha (by omega)
      rw [take_append_of_le_length (by omega), he, wholeCount, if_neg hn, take_zero]

/-- Scanning a stream with anything after it returns its frames first. -/
lemma frames_stream_append (as : List α) (tail : List β) (hv : ∀ a ∈ as, code.valid a) :
    (frames code.decode (code.stream as ++ tail)).1 = as ++ (frames code.decode tail).1 := by
  induction as with
  | nil => rfl
  | cons a as ih =>
    rw [stream_cons, append_assoc, frames_eq code.consuming,
      code.decode_encode a _ (hv a (.head as))]
    exact congrArg (a :: ·) (ih (fun b hb => hv b (.tail a hb)))

lemma frames_stream (as : List α) (hv : ∀ a ∈ as, code.valid a) :
    (frames code.decode (code.stream as)).1 = as := by
  simpa [frames_nil] using code.frames_stream_append as [] hv

end FrameCode
end Framing
