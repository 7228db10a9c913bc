import Mathlib

/-! # Reading a byte stream in pieces

A reader hands out its bytes in pieces of its own choice, may be interrupted between them and may
fail. It is given by what its calls return, one segment a call; a call that asks for less than its
segment leaves the rest for the next one. `fill` reads until a buffer is full. -/

namespace SimAgentNet

inductive Segment (ε : Type u) where
  | bytes (b : UInt8) (bs : List UInt8)
  | interrupted
  | failed (e : ε)
deriving DecidableEq

namespace Segment
variable {ε : Type u}

/-- The bytes a reader still has. -/
def content : List (Segment ε) → List UInt8
  | [] => []
  | .bytes b bs :: r => (b :: bs) ++ content r
  | _ :: r => content r

/-- The reader does not fail, though it may be interrupted. -/
def Clean (segments : List (Segment ε)) : Prop := ∀ e, .failed e ∉ segments

/-- Gives bytes back to a reader. -/
def push (bs : List UInt8) (r : List (Segment ε)) : List (Segment ε) :=
  match bs with
  | [] => r
  | b :: bs => .bytes b bs :: r

end Segment

/-- How filling a buffer ends: full, at the end of the stream with what was read before, or with an
error. -/
inductive Fill (ε : Type u) where
  | filled (bs : List UInt8)
  | short (bs : List UInt8)
  | failed (e : ε)
deriving DecidableEq

namespace Fill
variable {ε : Type u}

/-- The bytes of an earlier call come first. -/
def after (bs : List UInt8) : Fill ε → Fill ε
  | .filled bs' => .filled (bs ++ bs')
  | .short bs' => .short (bs ++ bs')
  | .failed e => .failed e

end Fill

open Segment in
/-- Reads until `n` bytes are there, and again after an interruption. -/
def fill {ε : Type u} : Nat → List (Segment ε) → Fill ε × List (Segment ε)
  | 0, r => (.filled [], r)
  | _ + 1, [] => (.short [], [])
  | n + 1, .interrupted :: r => fill (n + 1) r
  | _ + 1, .failed e :: r => (.failed e, r)
  | n + 1, .bytes b bs :: r =>
    if bs.length ≤ n then
      ((fill (n - bs.length) r).1.after (b :: bs), (fill (n - bs.length) r).2)
    else (.filled ((b :: bs).take (n + 1)), push ((b :: bs).drop (n + 1)) r)

namespace Segment
variable {ε : Type u} {segments : List (Segment ε)}

@[simp] theorem content_push (bs : List UInt8) (r : List (Segment ε)) :
    content (push bs r) = bs ++ content r := by
  cases bs <;> rfl

theorem Clean.push (h : Clean r) (bs : List UInt8) : Clean (ε := ε) (push bs r) := by
  cases bs with
  | nil => exact h
  | cons b bs =>
    intro e he
    rcases List.mem_cons.mp he with he | he
    · cases he
    · exact h e he

theorem Clean.tail (h : Clean (s :: segments)) : Clean segments :=
  fun e he => h e (List.mem_cons_of_mem _ he)

theorem fill_bytes_le (h : bs.length ≤ n) (hr : fill (n - bs.length) segments = (out, r)) :
    fill (n + 1) (.bytes b bs :: segments) = (out.after (b :: bs), r) := by
  simp [fill, h, hr]

theorem fill_bytes_gt (h : n < bs.length) :
    fill (n + 1) (.bytes b bs :: segments) =
      (.filled ((b :: bs).take (n + 1)), Segment.push ((b :: bs).drop (n + 1)) segments) := by
  simp [fill, Nat.not_le.mpr h]

/-- A clean reader with enough bytes fills the buffer with the first of them. -/
theorem fill_of_append (hc : Clean segments) (h : content segments = want ++ rest) :
    ∃ r, fill want.length segments = (.filled want, r) ∧ content r = rest ∧ Clean r := by
  induction segments generalizing want with
  | nil =>
    obtain ⟨rfl, rfl⟩ := List.nil_eq_append_iff.mp h
    exact ⟨[], rfl, rfl, hc⟩
  | cons s segments ih =>
    cases want with
    | nil => exact ⟨_, rfl, h, hc⟩
    | cons w want =>
      cases s with
      | interrupted => exact ih hc.tail h
      | failed e => exact absurd List.mem_cons_self (hc e)
      | bytes b bs =>
        rw [content, List.cons_append, List.cons_append] at h
        obtain ⟨rfl, happ⟩ := List.cons.inj h
        -- where the segment is used up, the rest is still to be read
        have used : ∀ more, want = bs ++ more → content segments = more ++ rest →
            ∃ r, fill (b :: want).length (.bytes b bs :: segments) = (.filled (b :: want), r) ∧
              content r = rest ∧ Clean r := by
          rintro more rfl hmore
          obtain ⟨r, hr, hcontent, hclean⟩ := ih hc.tail hmore
          have hlen : (bs ++ more).length - bs.length = more.length := by simp
          exact ⟨r, fill_bytes_le (by simp) (hlen ▸ hr), hcontent, hclean⟩
        rcases List.append_eq_append_iff.mp happ with ⟨more, hw, hmore⟩ | ⟨left, rfl, hleft⟩
        · exact used more hw hmore
        · by_cases hnil : left = []
          · exact used [] (by simp [hnil]) (by simpa [hnil] using hleft.symm)
          · have hlt : want.length < (want ++ left).length := by
              have := List.length_pos_of_ne_nil hnil
              simp [this]
            refine ⟨Segment.push left segments, ?_, ?_, hc.tail.push left⟩
            · rw [List.length_cons, fill_bytes_gt hlt]
              simp
            · simpa using hleft.symm

/-- A clean reader with too few bytes is read to its end. -/
theorem fill_of_lt (hc : Clean segments) (h : (content segments).length < n) :
    ∃ r, fill n segments = (.short (content segments), r) ∧ content r = [] ∧ Clean r := by
  induction segments generalizing n with
  | nil =>
    obtain ⟨n, rfl⟩ := Nat.exists_eq_succ_of_ne_zero (Nat.ne_of_gt h)
    exact ⟨[], rfl, rfl, hc⟩
  | cons s segments ih =>
    obtain ⟨n, rfl⟩ := Nat.exists_eq_succ_of_ne_zero (Nat.ne_of_gt (Nat.zero_lt_of_lt h))
    cases s with
    | interrupted => exact ih hc.tail h
    | failed e => exact absurd List.mem_cons_self (hc e)
    | bytes b bs =>
      have hlen : (b :: bs).length + (content segments).length < n + 1 := by
        rwa [content, List.length_append] at h
      rw [List.length_cons] at hlen
      obtain ⟨r, hr, hcontent, hclean⟩ := ih (n := n - bs.length) hc.tail (by omega)
      exact ⟨r, fill_bytes_le (by omega) hr, hcontent, hclean⟩

end Segment

end SimAgentNet
