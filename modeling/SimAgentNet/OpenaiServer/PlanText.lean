import SimAgentNet.OpenaiServer.PlanParse

/-! # Texts of plans

The parser ends on every input, on a boundary of a character, and reads the text of a plan as that
plan. -/

namespace SimAgentNet.OpenaiServer
variable {Mode : Type}

namespace PlanParser
open Cursor

variable {debug : String → String} {input rest rest' : List Char}

/-! ## Tokens -/

theorem skipWs_runs : Runs input (skipWs input) rest (.ok ()) (rest.dropWhile isAsciiWhitespace) :=
  .bumpWhile

theorem peekChar_runs : Runs input (peekChar input) rest (.ok rest.head?) rest := .peek

theorem bumpChar_runs : Runs input (bumpChar input) (c :: rest) (.ok ()) rest := .bump

theorem sliceFrom_runs (h : At input start (text ++ rest)) :
    Runs input (sliceFrom input start) rest (.ok text) rest := by
  refine .mark_bind fun stop hstop => ?_
  rw [h.slice hstop]
  exact .ofExcept _

theorem isIdentChar_of_isAlpha {c : Char} (h : c.isAlpha = true) : isIdentChar c = true := by
  simp [isIdentChar, Char.isAlphanum, h]

theorem parseIdent_runs {c : Char} {cs : List Char} (hc : c.isAlpha = true)
    (h : rest.dropWhile isAsciiWhitespace = c :: cs) :
    Runs input (parseIdent input) rest (.ok (.ofList (c :: cs.takeWhile isIdentChar)))
      (cs.dropWhile isIdentChar) := by
  refine skipWs_runs.bind (peekChar_runs.bind ?_)
  rw [h]
  show Runs input (if (!c.isAlpha) = true then _ else _) _ _ _
  rw [hc]
  refine .mark_bind fun start hstart => ?_
  have hident := isIdentChar_of_isAlpha hc
  have hmove : Runs input (bumpWhile input Stop.panicked isIdentChar) (c :: cs) (.ok ())
      (cs.dropWhile isIdentChar) := by
    rw [← List.dropWhile_cons_of_pos hident]
    exact .bumpWhile
  refine hmove.bind ((sliceFrom_runs ?_).bind (.pure _))
  rw [List.cons_append, List.takeWhile_append_dropWhile]
  exact hstart

theorem parseIdent_fails
    (h : ∀ c cs, rest.dropWhile isAsciiWhitespace = c :: cs → c.isAlpha = false) :
    Runs input (parseIdent input) rest (.error (.failure (.eval "expected plan identifier")))
      (rest.dropWhile isAsciiWhitespace) := by
  refine skipWs_runs.bind (peekChar_runs.bind ?_)
  cases hw : rest.dropWhile isAsciiWhitespace with
  | nil => exact .fail _
  | cons c cs =>
    show Runs input (if (!c.isAlpha) = true then _ else _) _ _ _
    rw [h c cs hw]
    exact .fail _

theorem attempt_runs {x : Parser α} (h : Runs input x rest (.ok a) rest') :
    Runs input (attempt x) rest (.ok (.ok a)) rest' := by
  intro pos hpos
  obtain ⟨pos', hrun, h'⟩ := h pos hpos
  exact ⟨pos', by rw [attempt, hrun], h'⟩

/-- What an atom text is read as. -/
def atomResult (debug : String → String) (atom : List Char) : Except Stop (Expr Mode) :=
  if atom = [] then .error (.failure (.eval "plan atom cannot be empty"))
  else if '(' ∈ atom then
    .error (.failure (.eval ("invalid plan atom " ++ debug (.ofList atom))))
  else .ok (.list [.symbol (planSymbol "atom"), .string (.ofList atom)])

theorem parseAtom_runs {w : List Char} (h : rest.dropWhile isAsciiWhitespace = w) :
    Runs input (parseAtom debug input : Parser (Expr Mode)) rest
      (atomResult debug (trim (w.takeWhile (!endsAtom ·)))) (w.dropWhile (!endsAtom ·)) := by
  subst h
  refine skipWs_runs.bind (.mark_bind fun start hstart => ?_)
  rw [← List.takeWhile_append_dropWhile (p := (!endsAtom ·))
    (l := rest.dropWhile isAsciiWhitespace)] at hstart
  refine Runs.bumpWhile.bind ((sliceFrom_runs hstart).bind ?_)
  unfold atomResult
  dsimp only
  split
  · exact .fail _
  · split
    · exact .fail _
    · exact .pure _

/-! ## Every input -/

/-- Started where `rest` is left, the operation returns or fails, on a boundary with at most `n`
characters left. -/
def Ends (input : List Char) (n : Nat) (x : Parser α) (rest : List Char) : Prop :=
  ∀ pos, At input pos rest → ∃ r pos' rest', x pos = (r, pos') ∧ At input pos' rest' ∧
    rest'.length ≤ n ∧ r ≠ .error .panicked ∧ r ≠ .error .exhausted

namespace Ends
variable {n : Nat}

theorem of_runs {x : Parser α} {r : Except Stop α} (h : Runs input x rest r rest')
    (hn : rest'.length ≤ n) (hp : r ≠ .error .panicked) (he : r ≠ .error .exhausted) :
    Ends input n x rest := by
  intro pos hpos
  obtain ⟨pos', hrun, h'⟩ := h pos hpos
  exact ⟨r, pos', rest', hrun, h', hn, hp, he⟩

theorem pure (a : α) (hn : rest.length ≤ n) : Ends input n (Pure.pure a : Parser α) rest :=
  of_runs (.pure a) hn nofun nofun

theorem failure (message : String) (hn : rest.length ≤ n) :
    Ends input n (failure message : Parser α) rest :=
  of_runs (.fail _) hn nofun nofun

theorem mono {x : Parser α} (h : Ends input n x rest) (hn : n ≤ m) : Ends input m x rest := by
  intro pos hpos
  obtain ⟨r, pos', rest', hrun, h', hlen, hr⟩ := h pos hpos
  exact ⟨r, pos', rest', hrun, h', hlen.trans hn, hr⟩

theorem bind {x : Parser α} {f : α → Parser β} (hx : Ends input n x rest)
    (hf : ∀ a rest', rest'.length ≤ n → Ends input n (f a) rest') :
    Ends input n (x >>= f) rest := by
  intro pos hpos
  obtain ⟨r, pos', rest', hrun, h', hlen, hr⟩ := hx pos hpos
  cases r with
  | ok a =>
    obtain ⟨r', hrest⟩ := hf a rest' hlen pos' h'
    exact ⟨r', by rw [Effect.bind_apply, hrun]; exact hrest⟩
  | error e =>
    refine ⟨.error e, pos', rest', by rw [Effect.bind_apply, hrun], h', hlen, ?_, ?_⟩
    · rintro ⟨⟩
      exact hr.1 rfl
    · rintro ⟨⟩
      exact hr.2 rfl

theorem runs_bind {x : Parser α} {f : α → Parser β} (hx : Runs input x rest (.ok a) rest')
    (hf : Ends input n (f a) rest') : Ends input n (x >>= f) rest := by
  intro pos hpos
  obtain ⟨pos', hrun, h'⟩ := hx pos hpos
  obtain ⟨r, hrest⟩ := hf pos' h'
  exact ⟨r, by rw [Effect.bind_apply, hrun]; exact hrest⟩

theorem mark_bind {f : Nat → Parser β} (h : ∀ pos, At input pos rest → Ends input n (f pos) rest) :
    Ends input n (Cursor.mark >>= f) rest := fun pos hpos => h pos hpos pos hpos

theorem attempt_bind {x : Parser α} {f : Except KernelError α → Parser β}
    (hx : Ends input n x rest) (hf : ∀ r rest', rest'.length ≤ n → Ends input n (f r) rest') :
    Ends input n (attempt x >>= f) rest := by
  refine bind ?_ hf
  intro pos hpos
  obtain ⟨r, pos', rest', hrun, h', hlen, hp, he⟩ := hx pos hpos
  rw [attempt, hrun]
  match r, hp, he with
  | .ok a, _, _ => exact ⟨_, pos', rest', rfl, h', hlen, nofun, nofun⟩
  | .error (.failure e), _, _ => exact ⟨_, pos', rest', rfl, h', hlen, nofun, nofun⟩
  | .error .panicked, hp, _ => exact absurd rfl hp
  | .error .exhausted, _, he => exact absurd rfl he

end Ends

theorem length_dropWhile_le (p : Char → Bool) (l : List Char) : (l.dropWhile p).length ≤ l.length :=
  (List.dropWhile_sublist p).length_le

theorem skipWs_ends {n : Nat} {f : Unit → Parser β}
    (h : Ends input n (f ()) (rest.dropWhile isAsciiWhitespace)) :
    Ends input n (skipWs input >>= f) rest := Ends.runs_bind skipWs_runs h

theorem reset_ends {n : Nat} {f : Unit → Parser β} (hstart : At input start rest)
    (h : Ends input n (f ()) rest) : Ends input n (reset start >>= f) rest' :=
  Ends.runs_bind (.reset hstart) h

theorem parseIdent_ends {n : Nat} (hn : rest.length ≤ n) : Ends input n (parseIdent input) rest := by
  have hw := (length_dropWhile_le isAsciiWhitespace rest).trans hn
  by_cases h : ∃ c cs, rest.dropWhile isAsciiWhitespace = c :: cs ∧ c.isAlpha = true
  · obtain ⟨c, cs, hcs, hc⟩ := h
    rw [hcs, List.length_cons] at hw
    exact .of_runs (parseIdent_runs hc hcs)
      ((length_dropWhile_le isIdentChar cs).trans (Nat.le_of_succ_le hw)) nofun nofun
  · have hno : ∀ c cs, rest.dropWhile isAsciiWhitespace = c :: cs → c.isAlpha = false := by
      intro c cs hcs
      by_contra hc
      exact h ⟨c, cs, hcs, by simpa using hc⟩
    exact .of_runs (parseIdent_fails hno) hw nofun nofun

theorem parseAtom_ends {n : Nat} (hn : rest.length ≤ n) :
    Ends input n (parseAtom debug input : Parser (Expr Mode)) rest := by
  refine .of_runs (parseAtom_runs rfl) (((length_dropWhile_le _ _).trans
    (length_dropWhile_le _ _)).trans hn) ?_ ?_ <;>
  · unfold atomResult
    split
    · exact nofun
    · split <;> exact nofun

section
variable {plan : Parser (Expr Mode)} {n : Nat}

theorem parsePlanOrLiteral_ends (hn : rest.length ≤ n)
    (hplan : ∀ rest, rest.length ≤ n → Ends input n plan rest) :
    Ends input n (parsePlanOrLiteral debug input plan) rest := by
  have hw := (length_dropWhile_le isAsciiWhitespace rest).trans hn
  refine skipWs_ends (.mark_bind fun start hstart => ?_)
  refine .attempt_bind (parseIdent_ends hw) fun r rest' _ => ?_
  cases r with
  | error e => exact reset_ends hstart (parseAtom_ends hw)
  | ok name =>
    refine skipWs_ends (.runs_bind peekChar_runs ?_)
    split
    · exact reset_ends hstart (hplan _ hw)
    · exact reset_ends hstart (parseAtom_ends hw)

theorem parseArg_ends (hn : rest.length ≤ n)
    (hplan : ∀ rest, rest.length ≤ n → Ends input n plan rest) :
    Ends input n (parseArg debug input plan) rest := by
  have hw := (length_dropWhile_le isAsciiWhitespace rest).trans hn
  refine skipWs_ends (.mark_bind fun start hstart => ?_)
  refine .attempt_bind (parseIdent_ends hw) fun r rest' hlen => ?_
  cases r with
  | error e => exact reset_ends hstart (hplan _ hw)
  | ok name =>
    have hlen' := (length_dropWhile_le isAsciiWhitespace rest').trans hlen
    refine skipWs_ends (.runs_bind peekChar_runs ?_)
    split
    · rename_i hpeek
      obtain ⟨cs, hcs⟩ : ∃ cs, rest'.dropWhile isAsciiWhitespace = ':' :: cs :=
        List.head?_eq_some_iff.mp hpeek
      rw [hcs, List.length_cons] at hlen'
      rw [hcs]
      refine .runs_bind bumpChar_runs (.bind (parsePlanOrLiteral_ends (by omega) hplan) ?_)
      exact fun value rest'' h => .pure _ h
    · exact reset_ends hstart (hplan _ hw)

/-- What follows an argument: a comma and the white space after it, or the end of the arguments. -/
theorem afterArg_cases (rest : List Char) :
    (∃ cs, rest.dropWhile isAsciiWhitespace = ',' :: cs ∧
      Runs input (afterArg debug input) rest (.ok true) (cs.dropWhile isAsciiWhitespace)) ∨
    (∃ cs, rest.dropWhile isAsciiWhitespace = ')' :: cs ∧
      Runs input (afterArg debug input) rest (.ok false) cs) ∨
    ∃ e, Runs input (afterArg debug input) rest (.error (.failure e))
      (rest.dropWhile isAsciiWhitespace) := by
  by_cases hcomma : ∃ cs, rest.dropWhile isAsciiWhitespace = ',' :: cs
  · obtain ⟨cs, hcs⟩ := hcomma
    refine .inl ⟨cs, hcs, skipWs_runs.bind (peekChar_runs.bind ?_)⟩
    rw [hcs]
    exact bumpChar_runs.bind (skipWs_runs.bind (.pure _))
  by_cases hclose : ∃ cs, rest.dropWhile isAsciiWhitespace = ')' :: cs
  · obtain ⟨cs, hcs⟩ := hclose
    refine .inr (.inl ⟨cs, hcs, skipWs_runs.bind (peekChar_runs.bind ?_)⟩)
    rw [hcs]
    exact bumpChar_runs.bind (.pure _)
  refine .inr (.inr ⟨.eval ("expected ',' or ')' in plan combinator near " ++
    debug (.ofList (rest.dropWhile isAsciiWhitespace))), skipWs_runs.bind (peekChar_runs.bind ?_)⟩)
  split
  · rename_i h
    exact absurd (List.head?_eq_some_iff.mp h) hcomma
  · rename_i h
    exact absurd (List.head?_eq_some_iff.mp h) hclose
  · exact Runs.remaining.bind (.fail _)

theorem parseArgs_ends {fuel : Nat} (hplan : ∀ rest, rest.length ≤ n → Ends input rest.length plan rest)
    (hn : rest.length ≤ n) (hfuel : rest.length < fuel) (args : List (Expr Mode)) :
    Ends input rest.length (parseArgs debug input plan fuel args) rest := by
  induction fuel generalizing rest args with
  | zero => cases hfuel
  | succ fuel ih =>
    have hle {rest' : List Char} (h : rest'.length ≤ rest.length) :
        Ends input rest.length plan rest' := (hplan rest' (h.trans hn)).mono h
    refine .bind (parseArg_ends le_rfl fun _ => hle) fun arg rest' hlen => ?_
    have hw := (length_dropWhile_le isAsciiWhitespace rest').trans hlen
    rcases @afterArg_cases debug input rest' with
      ⟨cs, hcs, hrun⟩ | ⟨cs, hcs, hrun⟩ | ⟨e, hrun⟩
    · -- the comma is consumed
      rw [hcs, List.length_cons] at hw
      have hdrop := length_dropWhile_le isAsciiWhitespace cs
      refine .runs_bind hrun ?_
      exact (ih (by omega) (by omega) _).mono (by omega)
    · rw [hcs, List.length_cons] at hw
      exact .runs_bind hrun (.pure _ (by omega))
    · exact .of_runs hrun.bind_error hw nofun nofun

end

/-- The number of characters that are left is fuel enough. -/
theorem parsePlan_ends {fuel : Nat} (hfuel : rest.length < fuel) :
    Ends input rest.length (parsePlan debug input fuel : Parser (Expr Mode)) rest := by
  induction fuel generalizing rest with
  | zero => cases hfuel
  | succ fuel ih =>
    have hw := length_dropWhile_le isAsciiWhitespace rest
    refine skipWs_ends (.mark_bind fun start hstart => ?_)
    refine .bind (parseIdent_ends hw) fun name rest' hlen => ?_
    have hlen' := (length_dropWhile_le isAsciiWhitespace rest').trans hlen
    refine skipWs_ends (.runs_bind peekChar_runs ?_)
    split
    · rename_i hpeek
      obtain ⟨cs, hcs⟩ : ∃ cs, rest'.dropWhile isAsciiWhitespace = '(' :: cs :=
        List.head?_eq_some_iff.mp hpeek
      rw [hcs, List.length_cons] at hlen'
      rw [hcs]
      refine .runs_bind bumpChar_runs (Ends.mono ?_ (Nat.le_of_succ_le hlen'))
      -- inside the parentheses
      have hdrop := length_dropWhile_le isAsciiWhitespace cs
      refine skipWs_ends (.runs_bind peekChar_runs ?_)
      split
      · rename_i hpeek'
        obtain ⟨ds, hds⟩ : ∃ ds, cs.dropWhile isAsciiWhitespace = ')' :: ds :=
          List.head?_eq_some_iff.mp hpeek'
        rw [hds, List.length_cons] at hdrop
        rw [hds]
        exact .runs_bind bumpChar_runs (.pure _ (Nat.le_of_succ_le hdrop))
      · have hplan (rest' : List Char) (h : rest'.length ≤ cs.length) : Ends input rest'.length
            (parsePlan debug input fuel : Parser (Expr Mode)) rest' := ih (by omega)
        have hargs : Ends input _ (parseArgs debug input (parsePlan debug input fuel) fuel []) _ :=
          parseArgs_ends hplan hdrop (by omega) []
        exact .bind (hargs.mono hdrop) fun args rest'' h => .pure _ h
    · exact reset_ends hstart ((parseAtom_ends le_rfl).mono hw)

theorem parseInput_ends : Ends input input.length (parseInput debug input : Parser (Expr Mode)) input := by
  refine .bind (parsePlan_ends (Nat.lt_succ_self _)) fun plan rest' hlen => ?_
  have hw := (length_dropWhile_le isAsciiWhitespace rest').trans hlen
  refine skipWs_ends (.mark_bind fun pos _ => ?_)
  split
  · exact .pure _ hw
  · exact .runs_bind .remaining (.failure _ hw)

/-- What is returned was read to the end. -/
theorem parseInput_ok {plan : Expr Mode} (h : parseInput debug input 0 = (.ok plan, pos)) :
    bytes input ≤ pos := by
  obtain ⟨plan', mid, -, h⟩ := Effect.bind_eq_ok_iff.mp h
  obtain ⟨-, mid', -, h⟩ := Effect.bind_eq_ok_iff.mp h
  obtain ⟨at', mid'', hmark, h⟩ := Effect.bind_eq_ok_iff.mp h
  cases hmark
  split at h
  · rename_i hle
    cases h
    exact hle
  · obtain ⟨_, _, -, h⟩ := Effect.bind_eq_ok_iff.mp h
    cases h

end PlanParser

/-! ## Trees and their texts -/

mutual
/-- A plan as it is written. -/
inductive PlanTree where
  | atom (text : List Char)
  | combinator (name : List Char) (args : PlanArgs)

/-- The arguments of a combinator. -/
inductive PlanArgs where
  | nil
  | plan (child : PlanTree) (rest : PlanArgs)
  | keyword (key : List Char) (value : PlanTree) (rest : PlanArgs)
end

mutual
def PlanTree.denote : PlanTree → Expr Mode
  | .atom text => .list [.symbol (planSymbol "atom"), .string (.ofList text)]
  | .combinator name args => .list (.symbol (planSymbol (.ofList name)) :: args.denote)

def PlanArgs.denote : PlanArgs → List (Expr Mode)
  | .nil => []
  | .plan child rest => child.denote :: rest.denote
  | .keyword key value rest => keywordExpr (.ofList key) value.denote :: rest.denote
end

/-- An identifier: a letter, then letters, digits, underscores and hyphens. -/
structure IsIdent (name : List Char) : Prop where
  letter : ∃ c cs, name = c :: cs ∧ c.isAlpha = true
  chars : ∀ c ∈ name, isIdentChar c = true

/-- An atom: trimmed, starting with a letter, without the characters that structure a plan. -/
structure IsAtom (text : List Char) : Prop where
  letter : ∃ c cs, text = c :: cs ∧ c.isAlpha = true
  trimmed : trim text = text
  plain : ∀ c ∈ text, c ≠ ',' ∧ c ≠ '(' ∧ c ≠ ')'

/-- The text of an atom that reads like a keyword: after its identifier and white space comes a
colon. -/
def LikeKeyword (text : List Char) : Prop :=
  ((text.dropWhile isIdentChar).dropWhile isAsciiWhitespace).head? = some ':'

/-- An argument that is an atom does not read like a keyword. -/
def PlanTree.FitsArgument : PlanTree → Prop
  | .atom text => ¬LikeKeyword text
  | .combinator _ _ => True

mutual
def PlanTree.WellFormed : PlanTree → Prop
  | .atom text => IsAtom text
  | .combinator name args => IsIdent name ∧ args.WellFormed

def PlanArgs.WellFormed : PlanArgs → Prop
  | .nil => True
  | .plan child rest => child.WellFormed ∧ child.FitsArgument ∧ rest.WellFormed
  | .keyword key value rest => IsIdent key ∧ value.WellFormed ∧ rest.WellFormed
end

def Blank (text : List Char) : Prop := ∀ c ∈ text, isAsciiWhitespace c = true

/-- What is written after an argument: nothing, or a comma and the arguments that follow. -/
def IsMore (isText : List Char → Prop) (rest : PlanArgs) (more : List Char) : Prop :=
  (rest = .nil ∧ more = []) ∨
    rest ≠ .nil ∧ ∃ b text, Blank b ∧ isText text ∧ more = ',' :: (b ++ text)

mutual
/-- The texts of a plan from its first token on, with white space after its tokens. -/
def PlanTree.IsText : PlanTree → List Char → Prop
  | .atom atom, text => ∃ b, Blank b ∧ text = atom ++ b
  | .combinator name args, text => ∃ b c d inner, Blank b ∧ Blank c ∧ Blank d ∧ args.IsText inner ∧
      text = name ++ (b ++ '(' :: (c ++ (inner ++ ')' :: d)))

def PlanArgs.IsText : PlanArgs → List Char → Prop
  | .nil, text => text = []
  | .plan child rest, text => ∃ body more, child.IsText body ∧ IsMore rest.IsText rest more ∧
      text = body ++ more
  | .keyword key value rest, text => ∃ b c body more, Blank b ∧ Blank c ∧ value.IsText body ∧
      IsMore rest.IsText rest more ∧ text = key ++ (b ++ ':' :: (c ++ (body ++ more)))
end

/-- A text of a plan, with white space around the tokens. -/
def Spells (tree : PlanTree) (text : List Char) : Prop :=
  ∃ b body, Blank b ∧ tree.IsText body ∧ text = b ++ body

/-! ## Reading a text back -/

namespace PlanParser
open Cursor

variable {debug : String → String} {input : List Char}

/-- What follows a plan: nothing, a comma or a closing parenthesis. -/
def Closes (tail : List Char) : Prop := tail = [] ∨ ∃ c cs, tail = c :: cs ∧ endsAtom c = true

theorem not_endsAtom_of_isAsciiWhitespace {c : Char} (h : isAsciiWhitespace c = true) :
    endsAtom c = false := by
  simp only [isAsciiWhitespace, Bool.or_eq_true, beq_iff_eq] at h
  rcases h with (((rfl | rfl) | rfl) | rfl) | rfl <;> rfl

theorem not_isIdentChar_of_isAsciiWhitespace {c : Char} (h : isAsciiWhitespace c = true) :
    isIdentChar c = false := by
  simp only [isAsciiWhitespace, Bool.or_eq_true, beq_iff_eq] at h
  rcases h with (((rfl | rfl) | rfl) | rfl) | rfl <;> rfl

theorem isUnicodeWhitespace_of_isAsciiWhitespace {c : Char} (h : isAsciiWhitespace c = true) :
    c.isUnicodeWhitespace = true := by
  simp only [isAsciiWhitespace, Bool.or_eq_true, beq_iff_eq] at h
  rcases h with (((rfl | rfl) | rfl) | rfl) | rfl <;> rfl

theorem not_whitespace_of_isAlpha {c : Char} (h : c.isAlpha = true) :
    c.isUnicodeWhitespace = false := by
  have hrange : 65 ≤ c.toNat ∧ c.toNat ≤ 122 := by
    simp only [Char.isAlpha, Char.isUpper, Char.isLower, Bool.or_eq_true, Bool.and_eq_true,
      decide_eq_true_eq, ge_iff_le, UInt32.le_iff_toNat_le] at h
    have hval : c.val.toNat = c.toNat := rfl
    rw [hval, show 'A'.val.toNat = 65 from rfl, show 'Z'.val.toNat = 90 from rfl,
      show 'a'.val.toNat = 97 from rfl, show 'z'.val.toNat = 122 from rfl] at h
    omega
  simp only [Char.isUnicodeWhitespace, Bool.or_eq_false_iff, Bool.and_eq_false_iff,
    decide_eq_false_iff_not, beq_eq_false_iff_ne]
  omega

/-- White space is skipped up to a token. -/
theorem dropWhile_blank_append {b l : List Char} (hb : Blank b)
    (hl : ∀ c cs, l = c :: cs → isAsciiWhitespace c = false) :
    (b ++ l).dropWhile isAsciiWhitespace = l := by
  rw [List.dropWhile_append_of_pos hb]
  cases l with
  | nil => rfl
  | cons c cs => rw [List.dropWhile_cons_of_neg (by simp [hl c cs rfl])]

/-- Dropping stops before a tail whose first character is kept. -/
theorem dropWhile_append_tail {p : Char → Bool} {l tail : List Char}
    (htail : ∀ c cs, tail = c :: cs → p c = false) :
    (l ++ tail).dropWhile p = l.dropWhile p ++ tail := by
  rw [List.dropWhile_append]
  split
  · rename_i hnil
    rw [List.isEmpty_iff.mp hnil, List.nil_append]
    cases tail with
    | nil => rfl
    | cons c cs => rw [List.dropWhile_cons_of_neg (by simp [htail c cs rfl])]
  · rfl

theorem takeWhile_append_tail {p : Char → Bool} {l tail : List Char} (hl : ∀ c ∈ l, p c = true)
    (htail : ∀ c cs, tail = c :: cs → p c = false) : (l ++ tail).takeWhile p = l := by
  rw [List.takeWhile_append_of_pos hl]
  cases tail with
  | nil => simp
  | cons c cs => rw [List.takeWhile_cons_of_neg (by simp [htail c cs rfl]), List.append_nil]

theorem Closes.not_whitespace (h : Closes tail) (c : Char) (cs : List Char) (hc : tail = c :: cs) :
    isAsciiWhitespace c = false := by
  rcases h with rfl | ⟨d, ds, rfl, hd⟩
  · cases hc
  · cases hc
    by_contra hw
    exact nomatch hd.symm.trans (not_endsAtom_of_isAsciiWhitespace (by simpa using hw))

theorem Closes.head?_ne (h : Closes tail) (hc : endsAtom c = false) : tail.head? ≠ some c := by
  rcases h with rfl | ⟨d, ds, rfl, hd⟩
  · exact nofun
  · rintro ⟨⟩
    exact nomatch hd.symm.trans hc

theorem Closes.not_isIdentChar (h : Closes tail) (c : Char) (cs : List Char) (hc : tail = c :: cs) :
    isIdentChar c = false := by
  rcases h with rfl | ⟨d, ds, rfl, hd⟩
  · cases hc
  · cases hc
    simp only [endsAtom, Bool.or_eq_true, beq_iff_eq] at hd
    rcases hd with rfl | rfl <;> rfl

theorem closes_comma (cs : List Char) : Closes (',' :: cs) := .inr ⟨_, _, rfl, rfl⟩

theorem closes_paren (cs : List Char) : Closes (')' :: cs) := .inr ⟨_, _, rfl, rfl⟩

theorem not_isAsciiWhitespace_of_isAlpha {c : Char} (h : c.isAlpha = true) :
    isAsciiWhitespace c = false := by
  by_contra hw
  have hu := isUnicodeWhitespace_of_isAsciiWhitespace (by simpa using hw)
  exact nomatch hu.symm.trans (not_whitespace_of_isAlpha h)

/-- A text that starts with a letter. -/
def StartsWord (text : List Char) : Prop := ∃ c cs, text = c :: cs ∧ c.isAlpha = true

theorem StartsWord.append (h : StartsWord text) (rest : List Char) : StartsWord (text ++ rest) := by
  obtain ⟨c, cs, rfl, hc⟩ := h
  exact ⟨c, cs ++ rest, rfl, hc⟩

theorem StartsWord.dropWhile (h : StartsWord text) : text.dropWhile isAsciiWhitespace = text := by
  obtain ⟨c, cs, rfl, hc⟩ := h
  rw [List.dropWhile_cons_of_neg (by simp [not_isAsciiWhitespace_of_isAlpha hc])]

theorem StartsWord.skipWs (h : StartsWord text) : Runs input (skipWs input) text (.ok ()) text := by
  have hrun : Runs input (PlanParser.skipWs input) text (.ok ()) _ := skipWs_runs
  rwa [h.dropWhile] at hrun

theorem StartsWord.parseIdent (h : StartsWord text) :
    Runs input (parseIdent input) text (.ok (.ofList (text.takeWhile isIdentChar)))
      (text.dropWhile isIdentChar) := by
  have hdrop := h.dropWhile
  obtain ⟨c, cs, rfl, hc⟩ := h
  rw [List.takeWhile_cons_of_pos (isIdentChar_of_isAlpha hc),
    List.dropWhile_cons_of_pos (isIdentChar_of_isAlpha hc)]
  exact parseIdent_runs hc hdrop

theorem skipBlank {b rest : List Char} (hb : Blank b)
    (hrest : ∀ c cs, rest = c :: cs → isAsciiWhitespace c = false) :
    Runs input (skipWs input) (b ++ rest) (.ok ()) rest := by
  have hrun : Runs input (skipWs input) (b ++ rest) (.ok ()) _ := skipWs_runs
  rwa [dropWhile_blank_append hb hrest] at hrun

theorem StartsWord.not_whitespace (h : StartsWord text) (c : Char) (cs : List Char)
    (hc : text = c :: cs) : isAsciiWhitespace c = false := by
  obtain ⟨d, ds, rfl, hd⟩ := h
  cases hc
  exact not_isAsciiWhitespace_of_isAlpha hd

/-! ### Atoms -/

theorem trim_append_blank {atom b : List Char} (h : IsAtom atom) (hb : Blank b) :
    trim (atom ++ b) = atom := by
  obtain ⟨c, cs, hcs, hc⟩ := h.letter
  have hdrop (rest : List Char) :
      (atom ++ rest).dropWhile Char.isUnicodeWhitespace = atom ++ rest := by
    rw [hcs, List.cons_append,
      List.dropWhile_cons_of_neg (by simp [not_whitespace_of_isAlpha hc])]
  have htrim := h.trimmed
  have hnil := hdrop []
  rw [List.append_nil] at hnil
  rw [trim, hnil] at htrim
  have hblank : ∀ c ∈ b.reverse, c.isUnicodeWhitespace = true := fun c hc =>
    isUnicodeWhitespace_of_isAsciiWhitespace (hb c (List.mem_reverse.mp hc))
  rw [trim, hdrop, List.reverse_append, List.dropWhile_append_of_pos hblank, htrim]

/-- What comes after the identifier of an atom and white space: more of the atom, or what follows
the atom. -/
theorem head?_after_ident {atom b tail : List Char} (hb : Blank b) (ht : Closes tail) :
    (((atom ++ (b ++ tail)).dropWhile isIdentChar).dropWhile isAsciiWhitespace).head? = tail.head? ∨
    (((atom ++ (b ++ tail)).dropWhile isIdentChar).dropWhile isAsciiWhitespace).head? =
      ((atom.dropWhile isIdentChar).dropWhile isAsciiWhitespace).head? := by
  have hstop : ∀ c cs, b ++ tail = c :: cs → isIdentChar c = false := by
    intro c cs hc
    cases b with
    | nil => exact ht.not_isIdentChar c cs hc
    | cons d ds =>
      cases hc
      exact not_isIdentChar_of_isAsciiWhitespace (hb _ List.mem_cons_self)
  rw [dropWhile_append_tail hstop, List.dropWhile_append,
    dropWhile_blank_append hb ht.not_whitespace]
  split
  · exact .inl rfl
  · rename_i hne
    refine .inr (List.head?_append_of_ne_nil _ ?_)
    simpa using hne

theorem atom_head?_ne_paren {atom b tail : List Char} (h : IsAtom atom) (hb : Blank b)
    (ht : Closes tail) :
    (((atom ++ (b ++ tail)).dropWhile isIdentChar).dropWhile isAsciiWhitespace).head? ≠ some '(' := by
  rcases head?_after_ident hb ht with heq | heq <;> rw [heq]
  · exact ht.head?_ne rfl
  · intro hparen
    have hmem := List.mem_of_mem_head? hparen
    have hsub := ((List.dropWhile_sublist _).trans (List.dropWhile_sublist _)).subset hmem
    exact (h.plain _ hsub).2.1 rfl

theorem parseAtom_text {atom b tail : List Char} (h : IsAtom atom) (hb : Blank b) (ht : Closes tail) :
    Runs input (parseAtom debug input : Parser (Expr Mode)) (atom ++ (b ++ tail))
      (.ok (.list [.symbol (planSymbol "atom"), .string (.ofList atom)])) tail := by
  have hstart : StartsWord (atom ++ (b ++ tail)) := StartsWord.append h.letter _
  have hplain : ∀ c ∈ atom ++ b, (!endsAtom c) = true := by
    intro c hc
    rcases List.mem_append.mp hc with hc | hc
    · have hne := h.plain c hc
      simp [endsAtom, hne.1, hne.2.2]
    · rw [not_endsAtom_of_isAsciiWhitespace (hb c hc)]
      rfl
  have htail : ∀ c cs, tail = c :: cs → (!endsAtom c) = false := by
    rintro c cs hc
    rcases ht with rfl | ⟨d, ds, rfl, hd⟩
    · cases hc
    · cases hc
      rw [hd]
      rfl
  have hrun : Runs input (parseAtom debug input : Parser (Expr Mode)) (atom ++ (b ++ tail)) _ _ :=
    parseAtom_runs hstart.dropWhile
  rw [← List.append_assoc, takeWhile_append_tail hplain htail, dropWhile_append_tail htail,
    List.dropWhile_eq_nil_iff.mpr hplain, List.nil_append, trim_append_blank h hb] at hrun
  rw [← List.append_assoc]
  obtain ⟨c, cs, hcs, -⟩ := h.letter
  have hne : atom ≠ [] := by
    rw [hcs]
    exact List.cons_ne_nil _ _
  have hparen : '(' ∉ atom := fun hm => (h.plain _ hm).2.1 rfl
  rwa [atomResult, if_neg hne, if_neg hparen] at hrun

/-! ### Plans -/

theorem IsIdent.takeWhile {name rest : List Char} (h : IsIdent name)
    (hrest : ∀ c cs, rest = c :: cs → isIdentChar c = false) :
    (name ++ rest).takeWhile isIdentChar = name ∧ (name ++ rest).dropWhile isIdentChar = rest := by
  refine ⟨takeWhile_append_tail h.chars hrest, ?_⟩
  rw [dropWhile_append_tail hrest, List.dropWhile_eq_nil_iff.mpr h.chars, List.nil_append]

/-- An identifier is read up to the white space and the punctuation after it. -/
theorem parseIdent_name {name b : List Char} {c : Char} {rest : List Char} (h : IsIdent name)
    (hb : Blank b) (hc : isIdentChar c = false) :
    Runs input (parseIdent input) (name ++ (b ++ c :: rest)) (.ok (.ofList name)) (b ++ c :: rest) := by
  have hrest : ∀ d ds, b ++ c :: rest = d :: ds → isIdentChar d = false := by
    intro d ds hd
    cases b with
    | nil =>
      cases hd
      exact hc
    | cons e es =>
      cases hd
      exact not_isIdentChar_of_isAsciiWhitespace (hb _ List.mem_cons_self)
  have hstart : StartsWord (name ++ (b ++ c :: rest)) := StartsWord.append h.letter _
  have hrun : Runs input (parseIdent input) (name ++ (b ++ c :: rest)) _ _ := hstart.parseIdent
  obtain ⟨htake, hdrop⟩ := IsIdent.takeWhile h hrest
  rwa [htake, hdrop] at hrun

theorem startsWord_of_isText {tree : PlanTree} (hw : tree.WellFormed) (h : tree.IsText text) :
    StartsWord text := by
  cases tree with
  | atom atom =>
    simp only [PlanTree.IsText] at h
    simp only [PlanTree.WellFormed] at hw
    obtain ⟨b, -, rfl⟩ := h
    exact StartsWord.append hw.letter _
  | combinator name args =>
    simp only [PlanTree.IsText] at h
    simp only [PlanTree.WellFormed] at hw
    obtain ⟨b, c, d, inner, -, -, -, -, rfl⟩ := h
    exact StartsWord.append hw.1.letter _

theorem startsWord_of_args {args : PlanArgs} (hne : args ≠ .nil) (hw : args.WellFormed)
    (h : args.IsText text) : StartsWord text := by
  cases args with
  | nil => exact absurd rfl hne
  | plan child rest =>
    simp only [PlanArgs.IsText] at h
    simp only [PlanArgs.WellFormed] at hw
    obtain ⟨body, more, hbody, -, rfl⟩ := h
    exact StartsWord.append (startsWord_of_isText hw.1 hbody) _
  | keyword key value rest =>
    simp only [PlanArgs.IsText] at h
    simp only [PlanArgs.WellFormed] at hw
    obtain ⟨b, c, body, more, -, -, -, -, rfl⟩ := h
    exact StartsWord.append hw.1.letter _

theorem closes_more {args : PlanArgs} {isText : List Char → Prop} (h : IsMore isText args more)
    (tail : List Char) : Closes (more ++ ')' :: tail) := by
  rcases h with ⟨-, rfl⟩ | ⟨-, b, text, -, -, rfl⟩
  · exact closes_paren _
  · exact closes_comma _

/-- The plan is read from each of its texts, up to white space after it. -/
def Reads (Mode : Type) (debug : String → String) (input : List Char) (tree : PlanTree) : Prop :=
  ∀ (text tail : List Char) (fuel : Nat), tree.WellFormed → tree.IsText text → Closes tail →
    (text ++ tail).length < fuel → ∃ b, Blank b ∧
      Runs input (parsePlan debug input fuel : Parser (Expr Mode)) (text ++ tail)
        (.ok tree.denote) (b ++ tail)

/-- The arguments are read from each of their texts, up to the closing parenthesis. -/
def ReadsArgs (Mode : Type) (debug : String → String) (input : List Char) (args : PlanArgs) : Prop :=
  ∀ (text tail : List Char) (fuel m : Nat) (before : List (Expr Mode)), args ≠ .nil →
    args.WellFormed → args.IsText text → (text ++ ')' :: tail).length < fuel →
    (text ++ ')' :: tail).length < m →
      Runs input (parseArgs debug input (parsePlan debug input m) fuel before) (text ++ ')' :: tail)
        (.ok (before ++ args.denote)) tail

theorem reads_atom {atom : List Char} : Reads Mode debug input (.atom atom) := by
  intro text tail fuel hw h ht hfuel
  simp only [PlanTree.IsText] at h
  simp only [PlanTree.WellFormed] at hw
  obtain ⟨b, hb, rfl⟩ := h
  obtain ⟨fuel, rfl⟩ : ∃ f, fuel = f + 1 := ⟨fuel - 1, by omega⟩
  rw [List.append_assoc]
  have hstart : StartsWord (atom ++ (b ++ tail)) := StartsWord.append hw.letter _
  refine ⟨[], nofun, hstart.skipWs.bind (.mark_bind fun start hpos => ?_)⟩
  refine hstart.parseIdent.bind (skipWs_runs.bind (peekChar_runs.bind ?_))
  rw [if_neg (atom_head?_ne_paren hw hb ht)]
  exact (Runs.reset hpos).bind (parseAtom_text hw hb ht)

theorem reads_combinator {name : List Char} {args : PlanArgs}
    (hargs : ReadsArgs Mode debug input args) :
    Reads Mode debug input (.combinator name args) := by
  intro text tail fuel hw h ht hfuel
  simp only [PlanTree.IsText] at h
  simp only [PlanTree.WellFormed] at hw
  obtain ⟨b, c, d, inner, hb, hc, hd, hinner, rfl⟩ := h
  obtain ⟨fuel, rfl⟩ : ∃ f, fuel = f + 1 := ⟨fuel - 1, by omega⟩
  simp only [List.append_assoc, List.cons_append, List.length_append, List.length_cons] at hfuel ⊢
  have hstart : StartsWord (name ++ (b ++ '(' :: (c ++ (inner ++ ')' :: (d ++ tail))))) :=
    StartsWord.append hw.1.letter _
  refine ⟨d, hd, hstart.skipWs.bind (.mark_bind fun start _ => ?_)⟩
  refine (parseIdent_name hw.1 hb rfl).bind ((skipBlank hb ?_).bind (peekChar_runs.bind ?_))
  · rintro _ _ ⟨⟩
    rfl
  rw [List.head?_cons, if_pos rfl]
  refine bumpChar_runs.bind ?_
  by_cases hne : args = .nil
  · cases hne
    simp only [PlanArgs.IsText] at hinner
    cases hinner
    refine (skipBlank hc ?_).bind (peekChar_runs.bind ?_)
    · rintro _ _ ⟨⟩
      rfl
    rw [List.nil_append, List.head?_cons, if_pos rfl]
    exact bumpChar_runs.bind (.pure _)
  · have hword := StartsWord.append (startsWord_of_args hne hw.2 hinner) (')' :: (d ++ tail))
    refine (skipBlank hc hword.not_whitespace).bind (peekChar_runs.bind ?_)
    have hhead : (inner ++ ')' :: (d ++ tail)).head? ≠ some ')' := by
      obtain ⟨e, es, he, halpha⟩ := hword
      rw [he]
      rintro ⟨⟩
      cases halpha
    rw [if_neg hhead]
    refine (hargs inner (d ++ tail) fuel fuel [] hne hw.2 hinner ?_ ?_).bind (.pure _)
    all_goals
      simp only [List.length_append, List.length_cons]
      omega

/-- A keyword's value is read from each of its texts. -/
theorem parsePlanOrLiteral_text {tree : PlanTree} {c body tail : List Char} {m : Nat}
    (hread : Reads Mode debug input tree) (hw : tree.WellFormed) (hc : Blank c)
    (h : tree.IsText body) (ht : Closes tail) (hm : (body ++ tail).length < m) :
    ∃ b, Blank b ∧
      Runs input (parsePlanOrLiteral debug input (parsePlan debug input m : Parser (Expr Mode)))
        (c ++ (body ++ tail)) (.ok tree.denote) (b ++ tail) := by
  have hstart : StartsWord (body ++ tail) := StartsWord.append (startsWord_of_isText hw h) _
  have hskip : Runs input (skipWs input) (c ++ (body ++ tail)) _ _ :=
    skipBlank hc hstart.not_whitespace
  cases tree with
  | atom atom =>
    simp only [PlanTree.IsText] at h
    simp only [PlanTree.WellFormed] at hw
    obtain ⟨b, hb, rfl⟩ := h
    rw [List.append_assoc] at hstart hskip ⊢
    refine ⟨[], nofun, hskip.bind (.mark_bind fun start hpos => ?_)⟩
    refine (attempt_runs hstart.parseIdent).bind (skipWs_runs.bind (peekChar_runs.bind ?_))
    rw [if_neg (atom_head?_ne_paren hw hb ht)]
    exact (Runs.reset hpos).bind (parseAtom_text hw hb ht)
  | combinator name args =>
    obtain ⟨b, hb, hrun⟩ := hread body tail m hw h ht hm
    refine ⟨b, hb, hskip.bind (.mark_bind fun start hpos => ?_)⟩
    simp only [PlanTree.IsText] at h
    simp only [PlanTree.WellFormed] at hw
    obtain ⟨b', c', d, inner, hb', -, -, -, rfl⟩ := h
    simp only [List.append_assoc, List.cons_append] at hpos hrun ⊢
    refine (attempt_runs (parseIdent_name hw.1 hb' rfl)).bind ((skipBlank hb' ?_).bind
      (peekChar_runs.bind ?_))
    · rintro _ _ ⟨⟩
      rfl
    rw [List.head?_cons, if_pos rfl]
    exact (Runs.reset hpos).bind hrun

/-- A plan that is an argument is read from each of its texts. -/
theorem parseArg_plan {tree : PlanTree} {body tail : List Char} {m : Nat}
    (hread : Reads Mode debug input tree) (hw : tree.WellFormed)
    (hfits : tree.FitsArgument) (h : tree.IsText body) (ht : Closes tail)
    (hm : (body ++ tail).length < m) :
    ∃ b, Blank b ∧
      Runs input (parseArg debug input (parsePlan debug input m : Parser (Expr Mode)))
        (body ++ tail) (.ok tree.denote) (b ++ tail) := by
  have hstart : StartsWord (body ++ tail) := StartsWord.append (startsWord_of_isText hw h) _
  obtain ⟨b, hb, hrun⟩ := hread body tail m hw h ht hm
  refine ⟨b, hb, hstart.skipWs.bind (.mark_bind fun start hpos => ?_)⟩
  cases tree with
  | atom atom =>
    simp only [PlanTree.IsText] at h
    obtain ⟨b', hb', rfl⟩ := h
    rw [List.append_assoc] at hstart hpos hrun ⊢
    have hcolon : (((atom ++ (b' ++ tail)).dropWhile isIdentChar).dropWhile
        isAsciiWhitespace).head? ≠ some ':' := by
      rcases head?_after_ident hb' ht with heq | heq <;> rw [heq]
      · exact ht.head?_ne rfl
      · exact hfits
    refine (attempt_runs hstart.parseIdent).bind (skipWs_runs.bind (peekChar_runs.bind ?_))
    rw [if_neg hcolon]
    exact (Runs.reset hpos).bind hrun
  | combinator name args =>
    simp only [PlanTree.IsText] at h
    simp only [PlanTree.WellFormed] at hw
    obtain ⟨b', c, d, inner, hb', -, -, -, rfl⟩ := h
    simp only [List.append_assoc, List.cons_append] at hpos hrun ⊢
    refine (attempt_runs (parseIdent_name hw.1 hb' rfl)).bind ((skipBlank hb' ?_).bind
      (peekChar_runs.bind ?_))
    · rintro _ _ ⟨⟩
      rfl
    have hcolon : ('(' :: (c ++ (inner ++ ')' :: (d ++ tail)))).head? ≠ some ':' := nofun
    rw [if_neg hcolon]
    exact (Runs.reset hpos).bind hrun

/-- A keyword argument is read from each of its texts. -/
theorem parseArg_keyword {key : List Char} {tree : PlanTree} {b c body tail : List Char} {m : Nat}
    (hread : Reads Mode debug input tree) (hkey : IsIdent key) (hw : tree.WellFormed)
    (hb : Blank b) (hc : Blank c) (h : tree.IsText body) (ht : Closes tail)
    (hm : (body ++ tail).length < m) :
    ∃ d, Blank d ∧
      Runs input (parseArg debug input (parsePlan debug input m : Parser (Expr Mode)))
        (key ++ (b ++ ':' :: (c ++ (body ++ tail))))
        (.ok (keywordExpr (.ofList key) tree.denote)) (d ++ tail) := by
  obtain ⟨d, hd, hrun⟩ := parsePlanOrLiteral_text hread hw hc h ht hm
  have hstart : StartsWord (key ++ (b ++ ':' :: (c ++ (body ++ tail)))) :=
    StartsWord.append hkey.letter _
  refine ⟨d, hd, hstart.skipWs.bind (.mark_bind fun start _ => ?_)⟩
  refine (attempt_runs (parseIdent_name hkey hb rfl)).bind ((skipBlank hb ?_).bind
    (peekChar_runs.bind ?_))
  · rintro _ _ ⟨⟩
    rfl
  rw [List.head?_cons, if_pos rfl]
  exact bumpChar_runs.bind (hrun.bind (.pure _))

/-- After an argument the loop stops at the parenthesis, or goes on with what was written next. -/
theorem parseArgs_step {arg : Expr Mode} {rest : PlanArgs} {before : List (Expr Mode)}
    {d text more tail : List Char} {fuel m : Nat}
    (hrest : ReadsArgs Mode debug input rest) (hw : rest.WellFormed)
    (hmore : IsMore rest.IsText rest more) (hd : Blank d)
    (hrun : Runs input (parseArg debug input (parsePlan debug input m)) (text ++ (more ++ ')' :: tail))
      (.ok arg) (d ++ (more ++ ')' :: tail)))
    (hfuel : (text ++ (more ++ ')' :: tail)).length < fuel)
    (hm : (text ++ (more ++ ')' :: tail)).length < m) :
    Runs input (parseArgs debug input (parsePlan debug input m) fuel before)
      (text ++ (more ++ ')' :: tail)) (.ok (before ++ arg :: rest.denote)) tail := by
  obtain ⟨fuel, rfl⟩ : ∃ f, fuel = f + 1 := ⟨fuel - 1, by omega⟩
  refine hrun.bind ?_
  rcases hmore with ⟨rfl, rfl⟩ | ⟨hne, b, inner, hb, hinner, rfl⟩
  · have hclose : Runs input (afterArg debug input) (d ++ ')' :: tail) (.ok false) tail := by
      refine (skipBlank hd ?_).bind (peekChar_runs.bind (bumpChar_runs.bind (.pure _)))
      rintro _ _ ⟨⟩
      rfl
    exact hclose.bind (.pure _)
  · have hword := StartsWord.append (startsWord_of_args hne hw hinner) (')' :: tail)
    have hcomma : Runs input (afterArg debug input) (d ++ ',' :: (b ++ (inner ++ ')' :: tail)))
        (.ok true) (inner ++ ')' :: tail) := by
      refine (skipBlank hd ?_).bind (peekChar_runs.bind (bumpChar_runs.bind
        ((skipBlank hb hword.not_whitespace).bind (.pure _))))
      rintro _ _ ⟨⟩
      rfl
    simp only [List.append_assoc, List.cons_append, List.length_append, List.length_cons]
      at hfuel hm ⊢
    refine hcomma.bind ?_
    have hnext := hrest inner tail fuel m (before ++ [arg]) hne hw hinner
      (by simp only [List.length_append, List.length_cons]; omega)
      (by simp only [List.length_append, List.length_cons]; omega)
    rwa [List.append_assoc] at hnext

theorem readsArgs_plan {child : PlanTree} {rest : PlanArgs}
    (hchild : Reads Mode debug input child)
    (hrest : ReadsArgs Mode debug input rest) :
    ReadsArgs Mode debug input (.plan child rest) := by
  intro text tail fuel m before _ hw h hfuel hm
  simp only [PlanArgs.IsText] at h
  simp only [PlanArgs.WellFormed] at hw
  obtain ⟨body, more, hbody, hmore, rfl⟩ := h
  rw [List.append_assoc] at hfuel hm ⊢
  obtain ⟨d, hd, hrun⟩ := parseArg_plan hchild hw.1 hw.2.1 hbody (closes_more hmore tail) hm
  exact parseArgs_step hrest hw.2.2 hmore hd hrun hfuel hm

theorem readsArgs_keyword {key : List Char} {value : PlanTree} {rest : PlanArgs}
    (hvalue : Reads Mode debug input value)
    (hrest : ReadsArgs Mode debug input rest) :
    ReadsArgs Mode debug input (.keyword key value rest) := by
  intro text tail fuel m before _ hw h hfuel hm
  simp only [PlanArgs.IsText] at h
  simp only [PlanArgs.WellFormed] at hw
  obtain ⟨b, c, body, more, hb, hc, hbody, hmore, rfl⟩ := h
  have hinside : (body ++ (more ++ ')' :: tail)).length < m := by
    simp only [List.length_append, List.length_cons] at hm ⊢
    omega
  obtain ⟨d, hd, hrun⟩ :=
    parseArg_keyword hvalue hw.1 hw.2.1 hb hc hbody (closes_more hmore tail) hinside
  have hassoc : key ++ (b ++ ':' :: (c ++ (body ++ more))) ++ ')' :: tail =
      (key ++ (b ++ ':' :: (c ++ body))) ++ (more ++ ')' :: tail) := by
    simp only [List.append_assoc, List.cons_append]
  rw [hassoc] at hfuel hm ⊢
  refine parseArgs_step hrest hw.2.2 hmore hd ?_ hfuel hm
  simpa only [List.append_assoc, List.cons_append] using hrun

mutual
theorem reads : ∀ tree : PlanTree, Reads Mode debug input tree
  | .atom _ => reads_atom
  | .combinator _ args => reads_combinator (readsArgs args)

theorem readsArgs : ∀ args : PlanArgs, ReadsArgs Mode debug input args
  | .nil => fun _ _ _ _ _ hne => absurd rfl hne
  | .plan child rest => readsArgs_plan (reads child) (readsArgs rest)
  | .keyword _ value rest => readsArgs_keyword (reads value) (readsArgs rest)
end

/-- White space before a plan is skipped. -/
theorem parsePlan_blank {b text rest' : List Char} {r : Except Stop (Expr Mode)} {fuel : Nat}
    (hb : Blank b) (hword : StartsWord text)
    (h : Runs input (parsePlan debug input (fuel + 1)) text r rest') :
    Runs input (parsePlan debug input (fuel + 1)) (b ++ text) r rest' :=
  (skipBlank hb hword.not_whitespace).bind (hword.skipWs.of_bind h)

/-- A text of a plan is read as that plan. -/
theorem parseInput_text {tree : PlanTree} {text : List Char} (hw : tree.WellFormed)
    (h : Spells tree text) :
    Runs text (parseInput debug text : Parser (Expr Mode)) text (.ok tree.denote) [] := by
  obtain ⟨b, body, hb, hbody, rfl⟩ := h
  have hfuel : (body ++ []).length < (b ++ body).length + 1 := by
    simp only [List.length_append, List.length_nil]
    omega
  obtain ⟨d, hd, hrun⟩ := reads tree body [] _ hw hbody (.inl rfl) hfuel
  rw [List.append_nil] at hrun
  refine (parsePlan_blank hb (startsWord_of_isText hw hbody) hrun).bind ?_
  have hend : Runs (b ++ body) (skipWs (b ++ body)) (d ++ []) (.ok ()) [] := skipBlank hd nofun
  refine hend.bind (.mark_bind fun stop hstop => ?_)
  rw [if_pos (hstop.nil_iff.mp rfl)]
  exact .pure _

end PlanParser

open Cursor PlanParser

/-- The text of a plan is parsed as that plan; on every text the parser ends on a boundary, and what
it returns was read from the whole text. -/
theorem parsePlan_text (debug : String → String) :
    (∀ (tree : PlanTree) (text : List Char), tree.WellFormed → Spells tree text →
      (parsePlan debug (.ofList text)).1 = .ok (tree.denote : Expr Mode)) ∧
    ∀ (input : String) (r : Except Stop (Expr Mode)) (pos : Nat), parsePlan debug input = (r, pos) →
      (r ≠ .error .panicked ∧ r ≠ .error .exhausted) ∧ (∃ rest, At input.toList pos rest) ∧
        ∀ plan, r = .ok plan → pos = bytes input.toList := by
  constructor
  · intro tree text hw h
    have hread : Runs text (parseInput debug text : Parser (Expr Mode)) text _ [] :=
      parseInput_text hw h
    obtain ⟨pos, hrun, -⟩ := hread 0 (at_zero text)
    rw [parsePlan, String.toList_ofList, hrun]
  · intro input r pos hrun
    have hends : Ends _ _ (parseInput debug input.toList : Parser (Expr Mode)) _ := parseInput_ends
    obtain ⟨r', pos', rest, hends, hat, -, hp, he⟩ := hends 0 (at_zero input.toList)
    obtain ⟨rfl, rfl⟩ := Prod.mk.inj (hrun.symm.trans hends)
    refine ⟨⟨hp, he⟩, ⟨rest, hat⟩, ?_⟩
    rintro plan rfl
    exact Nat.le_antisymm hat.le (parseInput_ok hends)

/-- A text of two plans: an argument that is an atom with white space before its colon is written
like a keyword, and is read as one. -/
theorem spaced_colon_reads_keyword :
    ∃ (atom text : List Char), IsAtom atom ∧
      (atom.dropWhile isIdentChar).head? ≠ some ':' ∧
      Spells (.combinator ['a'] (.plan (.atom atom) .nil)) text ∧
      ∀ debug, (parsePlan debug (.ofList text)).1 ≠
        .ok ((PlanTree.combinator ['a'] (.plan (.atom atom) .nil)).denote : Expr Unit) := by
  let atom := ['f', 'o', 'o', ' ', ':', ' ', 'b', 'a', 'r']
  let text := 'a' :: '(' :: (atom ++ [')'])
  let keyword : PlanTree := .combinator ['a'] (.keyword ['f', 'o', 'o'] (.atom ['b', 'a', 'r']) .nil)
  have hkeyword : keyword.WellFormed := by
    simp only [keyword, PlanTree.WellFormed, PlanArgs.WellFormed]
    exact ⟨⟨⟨_, _, rfl, rfl⟩, by simp [isIdentChar]⟩, ⟨⟨_, _, rfl, rfl⟩, by simp [isIdentChar]⟩,
      ⟨⟨_, _, rfl, rfl⟩, by decide, by simp⟩, trivial⟩
  have hspace : Blank [' '] := by simp [Blank, isAsciiWhitespace]
  have hspells : Spells keyword text := by
    refine ⟨[], text, nofun, ?_, rfl⟩
    simp only [keyword, PlanTree.IsText, PlanArgs.IsText]
    exact ⟨[], [], [], atom, nofun, nofun, nofun,
      ⟨[' '], [' '], ['b', 'a', 'r'], [], hspace, hspace, ⟨[], nofun, rfl⟩,
        .inl ⟨rfl, rfl⟩, rfl⟩, rfl⟩
  refine ⟨atom, text, ⟨⟨_, _, rfl, rfl⟩, by decide, by simp [atom]⟩, by decide,
    ⟨[], text, nofun, ?_, rfl⟩, ?_⟩
  · simp only [PlanTree.IsText, PlanArgs.IsText]
    exact ⟨[], [], [], atom, nofun, nofun, nofun,
      ⟨atom, [], ⟨[], nofun, (List.append_nil _).symm⟩, .inl ⟨rfl, rfl⟩,
        (List.append_nil _).symm⟩, rfl⟩
  · intro debug
    have hread : Runs text (parseInput debug text : Parser (Expr Unit)) text _ [] :=
      parseInput_text hkeyword hspells
    obtain ⟨pos, hrun, -⟩ := hread 0 (at_zero text)
    rw [parsePlan, String.toList_ofList, hrun]
    simp [keyword, PlanTree.denote, PlanArgs.denote, keywordExpr]

end SimAgentNet.OpenaiServer
