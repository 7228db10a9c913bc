import SimAgentNet.Data.Effect

/-! # Cursors in a text

A scanner keeps a byte position in a text. Every use of the position that is no boundary of a
character ends in a panic. `Runs` says what an operation does in terms of the text that is left, and
composes along the operations. -/

namespace Cursor
variable {ε α β : Type}

/-- The size of a text in UTF-8. -/
def bytes (cs : List Char) : Nat := (cs.map Char.utf8Size).sum

@[simp] theorem bytes_nil : bytes [] = 0 := rfl

@[simp] theorem bytes_cons (c : Char) (cs : List Char) :
    bytes (c :: cs) = c.utf8Size + bytes cs := by simp [bytes]

@[simp] theorem bytes_append (cs ds : List Char) : bytes (cs ++ ds) = bytes cs + bytes ds := by
  simp [bytes]

/-- What follows the first `n` bytes, if they end between two characters. -/
def dropBytes : Nat → List Char → Option (List Char)
  | 0, cs => some cs
  | _ + 1, [] => none
  | n + 1, c :: cs => if c.utf8Size ≤ n + 1 then dropBytes (n + 1 - c.utf8Size) cs else none

/-- The first `n` bytes, if they end between two characters. -/
def takeBytes : Nat → List Char → Option (List Char)
  | 0, _ => some []
  | _ + 1, [] => none
  | n + 1, c :: cs =>
    if c.utf8Size ≤ n + 1 then (takeBytes (n + 1 - c.utf8Size) cs).map (c :: ·) else none

theorem dropBytes_bytes (cs rest : List Char) : dropBytes (bytes cs) (cs ++ rest) = some rest := by
  induction cs with
  | nil => rw [bytes_nil, dropBytes, List.nil_append]
  | cons c cs ih =>
    have hpos := c.utf8Size_pos
    obtain ⟨n, hn⟩ : ∃ n, c.utf8Size + bytes cs = n + 1 := ⟨c.utf8Size + bytes cs - 1, by omega⟩
    rw [bytes_cons, List.cons_append, hn, dropBytes, if_pos (by omega), ← ih]
    congr 1
    omega

theorem takeBytes_bytes (cs rest : List Char) : takeBytes (bytes cs) (cs ++ rest) = some cs := by
  induction cs with
  | nil => rw [bytes_nil, takeBytes]
  | cons c cs ih =>
    have hpos := c.utf8Size_pos
    obtain ⟨n, hn⟩ : ∃ n, c.utf8Size + bytes cs = n + 1 := ⟨c.utf8Size + bytes cs - 1, by omega⟩
    rw [bytes_cons, List.cons_append, hn, takeBytes, if_pos (by omega)]
    rw [show n + 1 - c.utf8Size = bytes cs by omega, ih, Option.map_some]

/-! ## Operations -/

section
variable (input : List Char) (panicked : ε)

/-- The text from the position on. -/
def remaining : Effect ε Nat (List Char) := fun pos =>
  match dropBytes pos input with
  | some rest => (.ok rest, pos)
  | none => (.error panicked, pos)

/-- The text between two positions. -/
def slice (start stop : Nat) : Except ε (List Char) :=
  if start ≤ stop then
    match (dropBytes start input).bind (takeBytes (stop - start)) with
    | some text => .ok text
    | none => .error panicked
  else .error panicked

def peek : Effect ε Nat (Option Char) := do
  let rest ← remaining input panicked
  return rest.head?

/-- Moves over the next character. -/
def bump : Effect ε Nat Unit := do
  match ← peek input panicked with
  | some c => .modify (· + c.utf8Size)
  | none => return

/-- Moves over the next characters while they satisfy `p`. -/
def bumpWhile (p : Char → Bool) : Effect ε Nat Unit := do
  let rest ← remaining input panicked
  .modify (· + bytes (rest.takeWhile p))

/-- The position. -/
def mark : Effect ε Nat Nat := Effect.get

/-- Goes back to a position. -/
def reset (pos : Nat) : Effect ε Nat Unit := .modify fun _ => pos

end

/-! ## What is left -/

/-- The position is a boundary, with `rest` behind it. -/
def At (input : List Char) (pos : Nat) (rest : List Char) : Prop :=
  ∃ before, input = before ++ rest ∧ pos = bytes before

variable {input rest rest' rest'' : List Char} {pos stop : Nat} {panicked : ε}

theorem at_zero (input : List Char) : At input 0 input := ⟨[], rfl, rfl⟩

theorem At.dropBytes (h : At input pos rest) : dropBytes pos input = some rest := by
  obtain ⟨before, rfl, rfl⟩ := h
  exact dropBytes_bytes before rest

theorem At.append (h : At input pos (text ++ rest)) : At input (pos + bytes text) rest := by
  obtain ⟨before, rfl, rfl⟩ := h
  exact ⟨before ++ text, (List.append_assoc _ _ _).symm, (bytes_append _ _).symm⟩

/-- Nothing is left exactly at the end. -/
theorem At.nil_iff (h : At input pos rest) : rest = [] ↔ bytes input ≤ pos := by
  obtain ⟨before, rfl, rfl⟩ := h
  rw [bytes_append]
  cases rest with
  | nil => simp
  | cons c rest =>
    have hpos := c.utf8Size_pos
    rw [bytes_cons]
    exact ⟨nofun, fun h => by omega⟩

theorem At.le (h : At input pos rest) : pos ≤ bytes input := by
  obtain ⟨before, rfl, rfl⟩ := h
  rw [bytes_append]
  exact Nat.le_add_right _ _

/-- What is left determines the position. -/
theorem At.unique (h : At input pos rest) (h' : At input stop rest) : pos = stop := by
  obtain ⟨before, rfl, rfl⟩ := h
  obtain ⟨before', heq, rfl⟩ := h'
  rw [List.append_cancel_right heq]

/-- Between two boundaries lies a text. -/
theorem At.slice (h : At input pos (text ++ rest)) (h' : At input stop rest) :
    slice input panicked pos stop = .ok text := by
  obtain ⟨before, rfl, rfl⟩ := h
  obtain ⟨before', heq, rfl⟩ := h'
  rw [← List.append_assoc] at heq
  obtain rfl := List.append_cancel_right heq
  rw [Cursor.slice, bytes_append, if_pos (Nat.le_add_right _ _), dropBytes_bytes, Option.bind_some,
    Nat.add_sub_cancel_left, takeBytes_bytes]

/-- Started where `rest` is left, the operation ends with the result where `rest'` is left. -/
def Runs (input : List Char) (x : Effect ε Nat α) (rest : List Char) (r : Except ε α)
    (rest' : List Char) : Prop :=
  ∀ pos, At input pos rest → ∃ pos', x pos = (r, pos') ∧ At input pos' rest'

namespace Runs

theorem pure (a : α) : Runs input (Pure.pure a : Effect ε Nat α) rest (.ok a) rest :=
  fun pos h => ⟨pos, rfl, h⟩

theorem fail (e : ε) : Runs input (Effect.fail e : Effect ε Nat α) rest (.error e) rest :=
  fun pos h => ⟨pos, rfl, h⟩

theorem ofExcept (x : Except ε α) : Runs input (Effect.ofExcept x) rest x rest :=
  fun pos h => ⟨pos, rfl, h⟩

theorem bind {x : Effect ε Nat α} {f : α → Effect ε Nat β} {r : Except ε β}
    (hx : Runs input x rest (.ok a) rest') (hf : Runs input (f a) rest' r rest'') :
    Runs input (x >>= f) rest r rest'' := by
  intro pos h
  obtain ⟨pos', hrun, h'⟩ := hx pos h
  obtain ⟨pos'', hrun', h''⟩ := hf pos' h'
  exact ⟨pos'', by rw [Effect.bind_apply, hrun]; exact hrun', h''⟩

theorem bind_error {x : Effect ε Nat α} {f : α → Effect ε Nat β}
    (hx : Runs input x rest (.error e) rest') : Runs input (x >>= f) rest (.error e) rest' := by
  intro pos h
  obtain ⟨pos', hrun, h'⟩ := hx pos h
  exact ⟨pos', by rw [Effect.bind_apply, hrun], h'⟩

/-- What comes after an operation that does not move. -/
theorem of_bind {x : Effect ε Nat α} {f : α → Effect ε Nat β} {r : Except ε β}
    (hx : Runs input x rest (.ok a) rest) (h : Runs input (x >>= f) rest r rest') :
    Runs input (f a) rest r rest' := by
  intro pos hpos
  obtain ⟨pos', hrun, hpos'⟩ := hx pos hpos
  cases hpos.unique hpos'
  obtain ⟨pos'', hrun', h''⟩ := h pos hpos
  rw [Effect.bind_apply, hrun] at hrun'
  exact ⟨pos'', hrun', h''⟩

/-- The position is only used as the boundary it is. -/
theorem mark_bind {f : Nat → Effect ε Nat β} {r : Except ε β}
    (h : ∀ pos, At input pos rest → Runs input (f pos) rest r rest') :
    Runs input (Cursor.mark >>= f) rest r rest' := fun pos hpos => h pos hpos pos hpos

theorem reset (h : At input pos rest) :
    Runs input (Cursor.reset pos : Effect ε Nat Unit) rest' (.ok ()) rest :=
  fun _ _ => ⟨pos, rfl, h⟩

theorem remaining : Runs input (Cursor.remaining input panicked) rest (.ok rest) rest := by
  intro pos h
  exact ⟨pos, by rw [Cursor.remaining, h.dropBytes], h⟩

theorem peek : Runs input (Cursor.peek input panicked) rest (.ok rest.head?) rest :=
  remaining.bind (pure _)

theorem modify_bytes {text : List Char} :
    Runs input (.modify (· + bytes text) : Effect ε Nat Unit) (text ++ rest) (.ok ()) rest :=
  fun pos h => ⟨pos + bytes text, rfl, h.append⟩

theorem bump {c : Char} : Runs input (Cursor.bump input panicked) (c :: rest) (.ok ()) rest := by
  refine peek.bind (fun pos h => ⟨pos + c.utf8Size, rfl, ?_⟩)
  have hmove : At input (pos + bytes [c]) rest := At.append h
  simpa using hmove

theorem bumpWhile {p : Char → Bool} :
    Runs input (Cursor.bumpWhile input panicked p) rest (.ok ()) (rest.dropWhile p) := by
  refine remaining.bind ?_
  have hmove : Runs input (.modify (· + bytes (rest.takeWhile p)) : Effect ε Nat Unit)
      (rest.takeWhile p ++ rest.dropWhile p) (.ok ()) (rest.dropWhile p) := modify_bytes
  rwa [List.takeWhile_append_dropWhile] at hmove

end Runs

end Cursor
