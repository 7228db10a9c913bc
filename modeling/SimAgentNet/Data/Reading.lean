import SimAgentNet.Data.Effect
import SimAgentNet.Data.Stream

/-! # Computations that read a stream

What a computation consumes of a byte stream, however the bytes arrive: from a stream that starts
with them it gives a value, and from one that ends within them an error. What is consumed in
sequence is consumed one after the other. -/

namespace SimAgentNet.Reading
open Segment
variable {ε ε' α β : Type} {x : Effect ε (List (Segment ε')) α} {bytes rest : List UInt8}
  {segments : List (Segment ε')}

/-- From a stream that starts with the bytes, the value is read, and the reader goes on behind
them. -/
def Reads (x : Effect ε (List (Segment ε')) α) (bytes : List UInt8) (a : α) : Prop :=
  ∀ segments rest, Clean segments → content segments = bytes ++ rest →
    ∃ r, x segments = (.ok a, r) ∧ content r = rest ∧ Clean r

/-- A stream of the bytes alone is read to its end, with this result. -/
def Ends (x : Effect ε (List (Segment ε')) α) (bytes : List UInt8) (result : Except ε α) : Prop :=
  ∀ segments, Clean segments → content segments = bytes →
    ∃ r, x segments = (result, r) ∧ content r = [] ∧ Clean r

/-- The bytes are what it takes to read the value. -/
structure Consumes (x : Effect ε (List (Segment ε')) α) (bytes : List UInt8) (a : α) : Prop where
  reads : Reads x bytes a
  starves : ∀ part, part <+: bytes → part ≠ bytes → ∃ e, Ends x part (.error e)

theorem Consumes.pure (a : α) : Consumes (pure a : Effect ε (List (Segment ε')) α) [] a := by
  constructor
  · intro segments rest hclean hcontent
    exact ⟨segments, rfl, hcontent, hclean⟩
  · intro part hpre hne
    exact absurd (List.prefix_nil.mp hpre) hne

theorem Ends.bind_error {f : α → Effect ε (List (Segment ε')) β} (hx : Ends x part (.error e)) :
    Ends (x >>= f) part (.error e) := by
  intro segments hclean hcontent
  obtain ⟨r, hr, hrest, hclean⟩ := hx segments hclean hcontent
  refine ⟨r, ?_, hrest, hclean⟩
  rw [Effect.bind_apply, hr]

theorem Reads.bind_error {f : α → Effect ε (List (Segment ε')) β} (hx : Reads x bytes a)
    (hf : Ends (f a) part (.error e)) : Ends (x >>= f) (bytes ++ part) (.error e) := by
  intro segments hclean hcontent
  obtain ⟨r, hr, hrest, hclean⟩ := hx segments part hclean hcontent
  obtain ⟨r', hr', hrest', hclean'⟩ := hf r hclean hrest
  refine ⟨r', ?_, hrest', hclean'⟩
  rw [Effect.bind_apply, hr]
  exact hr'

theorem Reads.bind {f : α → Effect ε (List (Segment ε')) β} (hx : Reads x bytes a)
    (hf : Reads (f a) bytes' b) : Reads (x >>= f) (bytes ++ bytes') b := by
  intro segments rest hclean hcontent
  rw [List.append_assoc] at hcontent
  obtain ⟨r, hr, hrest, hclean⟩ := hx segments _ hclean hcontent
  obtain ⟨r', hr', hrest', hclean'⟩ := hf r rest hclean hrest
  refine ⟨r', ?_, hrest', hclean'⟩
  rw [Effect.bind_apply, hr]
  exact hr'

theorem Consumes.bind {f : α → Effect ε (List (Segment ε')) β} (hx : Consumes x bytes a)
    (hf : Consumes (f a) bytes' b) : Consumes (x >>= f) (bytes ++ bytes') b := by
  refine ⟨hx.reads.bind hf.reads, fun part hpre hne => ?_⟩
  by_cases hin : part <+: bytes ∧ part ≠ bytes
  · -- the stream ends within what the first computation consumes
    obtain ⟨e, he⟩ := hx.starves part hin.1 hin.2
    exact ⟨e, he.bind_error⟩
  · have hpart : ∃ part', part = bytes ++ part' := by
      obtain hpart | ⟨part', hpart⟩ := List.prefix_or_prefix_of_prefix hpre (List.prefix_append _ _)
      · exact ⟨[], by rw [List.append_nil]; exact not_not.mp fun h => hin ⟨hpart, h⟩⟩
      · exact ⟨part', hpart.symm⟩
    obtain ⟨part', rfl⟩ := hpart
    have hpre' : part' <+: bytes' := (List.prefix_append_right_inj bytes).mp hpre
    obtain ⟨e, he⟩ := hf.starves part' hpre' fun h => hne (by rw [h])
    exact ⟨e, hx.reads.bind_error he⟩

theorem Consumes.bind_last {f : α → Effect ε (List (Segment ε')) β} (hx : Consumes x bytes a)
    (hf : Consumes (f a) [] b) : Consumes (x >>= f) bytes b := by
  have h := hx.bind hf
  rwa [List.append_nil] at h

/-- A stream that ends behind its start, or within it, where the start needs a first byte. -/
theorem Reads.cut {f : α → Effect ε (List (Segment ε')) β} (hx : Reads x start a)
    (hshort : ∀ part, part ≠ [] → part.length < start.length → ∃ e, Ends x part (.error e))
    (hf : ∀ part, part <+: bytes → part ≠ bytes → ∃ e, Ends (f a) part (.error e))
    (hpre : part <+: start ++ bytes) (hne : part ≠ []) (hcut : part ≠ start ++ bytes) :
    ∃ e, Ends (x >>= f) part (.error e) := by
  by_cases hlen : part.length < start.length
  · obtain ⟨e, he⟩ := hshort part hne hlen
    exact ⟨e, he.bind_error⟩
  · obtain ⟨part', rfl⟩ : start <+: part :=
      List.prefix_of_prefix_length_le (List.prefix_append _ _) hpre (Nat.le_of_not_lt hlen)
    have hpre' : part' <+: bytes := (List.prefix_append_right_inj start).mp hpre
    obtain ⟨e, he⟩ := hf part' hpre' fun heq => hcut (by rw [heq])
    exact ⟨e, hx.bind_error he⟩

/-! ## Streams -/

/-- The results of running a computation several times, and what the reader has left. -/
def readAll (x : Effect ε (List (Segment ε')) α) :
    Nat → List (Segment ε') → List (Except ε α) × List (Segment ε')
  | 0, segments => ([], segments)
  | n + 1, segments =>
    let (result, r) := x segments
    (result :: (readAll x n r).1, (readAll x n r).2)

theorem readAll_succ (h : x segments = (result, r)) (n : Nat) :
    readAll x (n + 1) segments = (result :: (readAll x n r).1, (readAll x n r).2) := by
  simp only [readAll, h]

theorem readAll_of_end (h : Ends x [] result) (hclean : Clean segments)
    (hcontent : content segments = []) (k : Nat) :
    (readAll x k segments).1 = List.replicate k result := by
  induction k generalizing segments with
  | zero => rfl
  | succ k ih =>
    obtain ⟨r, hr, hrest, hclean⟩ := h segments hclean hcontent
    rw [readAll_succ hr, List.replicate_succ, ih hclean hrest]

/-- The values at the start of a stream are read, and the reader goes on behind them. -/
theorem readAll_of_reads (h : List.Forall₂ (fun a bytes => Reads x bytes a) values encodings)
    (hclean : Clean segments) (hcontent : content segments = encodings.flatten ++ rest) (k : Nat) :
    ∃ r, (readAll x (values.length + k) segments).1 = values.map .ok ++ (readAll x k r).1 ∧
      content r = rest ∧ Clean r := by
  induction h generalizing segments with
  | nil => exact ⟨segments, by simp, hcontent, hclean⟩
  | @cons a bytes values encodings hfirst _ ih =>
    rw [List.flatten_cons, List.append_assoc] at hcontent
    obtain ⟨r, hr, hrest, hclean⟩ := hfirst segments _ hclean hcontent
    obtain ⟨r', hr', hrest', hclean'⟩ := ih hclean hrest
    refine ⟨r', ?_, hrest', hclean'⟩
    rw [List.length_cons, Nat.succ_add, readAll_succ hr, hr', List.map_cons, List.cons_append]

/-- A stream of values is read, and then its end again and again. -/
theorem readAll_stream (h : List.Forall₂ (fun a bytes => Reads x bytes a) values encodings)
    (hend : Ends x [] result) (hclean : Clean segments)
    (hcontent : content segments = encodings.flatten) (k : Nat) :
    (readAll x (values.length + k) segments).1 = values.map .ok ++ List.replicate k result := by
  rw [← List.append_nil encodings.flatten] at hcontent
  obtain ⟨r, hr, hrest, hclean⟩ := readAll_of_reads h hclean hcontent k
  rw [hr, readAll_of_end hend hclean hrest]

/-- A stream that ends with an error gives it in the place of a value. -/
theorem readAll_stream_cut (h : List.Forall₂ (fun a bytes => Reads x bytes a) values encodings)
    (hend : Ends x [] result) (hcut : Ends x part (.error e)) (hclean : Clean segments)
    (hcontent : content segments = encodings.flatten ++ part) (k : Nat) :
    (readAll x (values.length + (k + 1)) segments).1 =
      values.map .ok ++ .error e :: List.replicate k result := by
  obtain ⟨r, hr, hrest, hclean⟩ := readAll_of_reads h hclean hcontent (k + 1)
  obtain ⟨r', hr', hrest', hclean'⟩ := hcut r hclean hrest
  rw [hr, readAll_succ hr', readAll_of_end hend hclean' hrest']

end SimAgentNet.Reading
