import SimAgentNet.Data.Run

/-! # Byte readers

Readers of a binary format, as computations over the bytes still to be read. `Reads r bs a c`
characterises a reader on the bytes some writer produced for `a`: it gives `a` back and stops at
their end exactly when `c` holds. The rules below compose such facts along the reader. -/

/-- A reader: it consumes a part of the bytes, or fails. -/
abbrev ByteReader (ε : Type) := StateT (List UInt8) (Except ε)

namespace ByteReader
variable {ε α β : Type}

theorem bind_eq_ok_iff {r : ByteReader ε α} {f : α → ByteReader ε β} :
    (r >>= f) bs = .ok (b, rest) ↔ ∃ a mid, r bs = .ok (a, mid) ∧ f a mid = .ok (b, rest) := by
  show (r bs >>= fun p => f p.1 p.2) = _ ↔ _
  rw [Except.bind_eq_ok_iff]
  exact ⟨fun ⟨⟨a, mid⟩, h⟩ => ⟨a, mid, h⟩, fun ⟨a, mid, h⟩ => ⟨⟨a, mid⟩, h⟩⟩

theorem pure_eq_ok_iff {a b : α} {bs rest : List UInt8} :
    (pure a : ByteReader ε α) bs = .ok (b, rest) ↔ a = b ∧ bs = rest :=
  ⟨fun h => Prod.mk.inj (Except.ok.inj h), fun ⟨h, h'⟩ => h ▸ h' ▸ rfl⟩

def fail (e : ε) : ByteReader ε α := fun _ => .error e

/-- The next `n` bytes. -/
def take (e : ε) (n : Nat) : ByteReader ε (List UInt8) := fun bs =>
  if bs.length < n then .error e else .ok (bs.splitAt n)

/-- Runs a reader `n` times. -/
def times (r : ByteReader ε α) : Nat → ByteReader ε (List α)
  | 0 => pure []
  | n + 1 => do
    let a ← r
    let as ← times r n
    return a :: as

/-- Every value the reader can return satisfies `P`. -/
def Returns (r : ByteReader ε α) (P : α → Prop) : Prop :=
  ∀ bs a rest, r bs = .ok (a, rest) → P a

theorem Returns.pure {P : α → Prop} (h : P a) : Returns (pure a : ByteReader ε α) P := by
  intro bs a' rest h'
  obtain ⟨rfl, -⟩ := pure_eq_ok_iff.mp h'
  exact h

theorem Returns.bind' {r : ByteReader ε α} {f : α → ByteReader ε β} {P : β → Prop}
    {Q : α → Prop} (hr : Returns r Q) (h : ∀ a, Q a → Returns (f a) P) :
    Returns (r >>= f) P := by
  intro bs b rest hb
  obtain ⟨a, mid, ha, hf⟩ := bind_eq_ok_iff.mp hb
  exact h a (hr _ _ _ ha) _ _ _ hf

theorem Returns.bind {r : ByteReader ε α} {f : α → ByteReader ε β} {P : β → Prop}
    (h : ∀ a, Returns (f a) P) : Returns (r >>= f) P :=
  Returns.bind' (Q := fun _ => True) (fun _ _ _ _ => trivial) fun a _ => h a

theorem Returns.fail {P : α → Prop} : Returns (fail e : ByteReader ε α) P := nofun

theorem Returns.mono {r : ByteReader ε α} {P Q : α → Prop} (h : Returns r P)
    (hpq : ∀ a, P a → Q a) : Returns r Q := fun bs a rest hr => hpq a (h bs a rest hr)

theorem returns_take (e : ε) (n : Nat) : Returns (take e n) (·.length = n) := by
  intro bs a rest h
  obtain ⟨hlen, he⟩ := Except.guard_eq_ok_iff.mp h
  rw [List.splitAt_eq] at he
  cases he
  rw [List.length_take]
  omega

theorem returns_times (r : ByteReader ε α) (n : Nat) :
    Returns (times r n) (·.length = n) := by
  induction n with
  | zero => exact .pure rfl
  | succ n ih => exact .bind fun _ => .bind' ih fun as h => .pure (by simp [h])

/-- The reader consumes at most `n` bytes. -/
def Within (r : ByteReader ε α) (n : Nat) : Prop :=
  ∀ bs a rest, r bs = .ok (a, rest) → bs.length ≤ rest.length + n

theorem Within.pure : Within (pure a : ByteReader ε α) n := by
  intro bs a' rest h
  obtain ⟨-, rfl⟩ := pure_eq_ok_iff.mp h
  omega

theorem Within.fail : Within (fail e : ByteReader ε α) n := nofun

theorem Within.take {e : ε} (h : k ≤ n) : Within (take e k) n := by
  intro bs a rest hr
  obtain ⟨hlen, he⟩ := Except.guard_eq_ok_iff.mp hr
  rw [List.splitAt_eq] at he
  cases he
  rw [List.length_drop]
  omega

theorem Within.mono {r : ByteReader ε α} (h : Within r n) (hn : n ≤ m) : Within r m := by
  intro bs a rest hr
  have := h bs a rest hr
  omega

theorem Within.bind {r : ByteReader ε α} {f : α → ByteReader ε β} (hr : Within r n)
    (hf : ∀ a, Within (f a) m) : Within (r >>= f) (n + m) := by
  intro bs b rest h
  obtain ⟨a, mid, ha, hb⟩ := bind_eq_ok_iff.mp h
  have h₁ := hr _ _ _ ha
  have h₂ := hf a _ _ _ hb
  omega

/-- The reader never fails with `e`. -/
def Never (r : ByteReader ε α) (e : ε) : Prop := ∀ bs, r bs ≠ .error e

theorem Never.pure : Never (pure a : ByteReader ε α) e := nofun

theorem Never.fail (h : e' ≠ e) : Never (fail e' : ByteReader ε α) e := fun _ he =>
  h (Except.error.inj he)

theorem Never.take {e e' : ε} (h : e' ≠ e) : Never (take e' n) e := by
  intro bs he
  simp only [ByteReader.take] at he
  split at he
  · exact h (Except.error.inj he)
  · cases he

theorem Never.bind' {r : ByteReader ε α} {f : α → ByteReader ε β} {Q : α → Prop}
    (hr : Never r e) (hq : Returns r Q) (h : ∀ a, Q a → Never (f a) e) :
    Never (r >>= f) e := by
  intro bs he
  replace he : (r bs >>= fun p => f p.1 p.2) = .error e := he
  cases hbs : r bs with
  | error e' =>
    rw [hbs] at he
    cases he
    exact hr bs hbs
  | ok p =>
    rw [hbs] at he
    exact h p.1 (hq _ _ _ hbs) _ he

theorem Never.bind {r : ByteReader ε α} {f : α → ByteReader ε β} (hr : Never r e)
    (h : ∀ a, Never (f a) e) : Never (r >>= f) e :=
  hr.bind' (Q := fun _ => True) (fun _ _ _ _ => trivial) fun a _ => h a

theorem Never.times {r : ByteReader ε α} (hr : Never r e) (n : Nat) : Never (times r n) e := by
  induction n with
  | zero => exact .pure
  | succ n ih => exact hr.bind fun _ => ih.bind fun _ => .pure

/-- On `bs`, what a writer produced for `a`, the reader returns `a` and leaves what follows
exactly when `c` holds. -/
def Reads (r : ByteReader ε α) (bs : List UInt8) (a : α) (c : Prop) : Prop :=
  ∀ rest rest', r (bs ++ rest) = .ok (a, rest') ↔ c ∧ rest' = rest

/-- On `bs` the reader always returns `a` and leaves what follows. -/
def Gives (r : ByteReader ε α) (bs : List UInt8) (a : α) : Prop :=
  ∀ rest, r (bs ++ rest) = .ok (a, rest)

theorem Gives.take {e : ε} {n : Nat} (h : bs.length = n) : Gives (take e n) bs bs := by
  intro rest
  have hlen : ¬(bs ++ rest).length < n := by
    rw [List.length_append]; omega
  have hsplit : (bs ++ rest).splitAt n = (bs, rest) := by
    rw [List.splitAt_eq, List.take_left' h, List.drop_left' h]
  simp only [ByteReader.take, if_neg hlen, hsplit]

theorem Gives.bind {r : ByteReader ε α} {f : α → ByteReader ε β} (h : Gives r bs a)
    (h' : Gives (f a) bs' b) : Gives (r >>= f) (bs ++ bs') b := by
  intro rest
  exact bind_eq_ok_iff.mpr ⟨a, bs' ++ rest, by rw [List.append_assoc, h], h' rest⟩

theorem Gives.bind_pure {r : ByteReader ε α} {f : α → ByteReader ε β} (h : Gives r bs a)
    (h' : f a = Pure.pure b) : Gives (r >>= f) bs b := by
  have hnil : Gives (f a) [] b := by rw [h']; exact fun _ => rfl
  have := h.bind hnil
  simpa using this

/-- On `bs` the reader returns `a` and leaves what follows, or it fails. -/
def Forces (r : ByteReader ε α) (bs : List UInt8) (a : α) : Prop :=
  ∀ rest x, r (bs ++ rest) = .ok x → x = (a, rest)

theorem Gives.forces {r : ByteReader ε α} (h : Gives r bs a) : Forces r bs a := by
  intro rest x hx
  exact (Except.ok.inj ((h rest).symm.trans hx)).symm

theorem Forces.bind {r : ByteReader ε α} {f : α → ByteReader ε β} (h : Forces r bs a)
    (h' : Forces (f a) bs' b) : Forces (r >>= f) (bs ++ bs') b := by
  rintro rest ⟨b', rest'⟩ hx
  obtain ⟨a', mid, ha, hf⟩ := bind_eq_ok_iff.mp hx
  rw [List.append_assoc] at ha
  cases h _ _ ha
  exact h' _ _ hf

theorem Forces.bind_pure {r : ByteReader ε α} {f : α → ByteReader ε β} (h : Forces r bs a)
    (h' : f a = Pure.pure b) : Forces (r >>= f) bs b := by
  have hpure : Forces (f a) [] b := by
    rw [h']
    exact Gives.forces fun _ => rfl
  have := h.bind hpure
  rwa [List.append_nil] at this

namespace Reads

theorem pure {a : α} : Reads (pure a : ByteReader ε α) [] a True := by
  intro rest rest'
  rw [pure_eq_ok_iff]
  exact ⟨fun h => ⟨trivial, h.2.symm⟩, fun h => ⟨rfl, h.2.symm⟩⟩

/-- The sequencing rule. The value read first must be recoverable from the final result. -/
theorem bind {r : ByteReader ε α} {f : α → ByteReader ε β} (h : Reads r bs a c)
    (h' : Reads (f a) bs' b c') (hd : ∀ a', Returns (f a') (· = b → a' = a)) :
    Reads (r >>= f) (bs ++ bs') b (c ∧ c') := by
  intro rest rest'
  rw [bind_eq_ok_iff, List.append_assoc]
  constructor
  · intro ⟨a', mid, hr, hf⟩
    cases hd a' _ _ _ hf rfl
    obtain ⟨hc, rfl⟩ := (h _ _).mp hr
    obtain ⟨hc', rfl⟩ := (h' _ _).mp hf
    exact ⟨⟨hc, hc'⟩, rfl⟩
  · intro ⟨⟨hc, hc'⟩, he⟩
    exact ⟨a, bs' ++ rest, (h _ _).mpr ⟨hc, rfl⟩, (h' _ _).mpr ⟨hc', he⟩⟩

theorem congr {r : ByteReader ε α} (h : Reads r bs a c) (hc : c ↔ c') : Reads r bs a c' := by
  intro rest rest'
  rw [h, hc]

/-- The end of a sequence: the last value read completes the result. -/
theorem bind_pure {r : ByteReader ε α} {g : α → β} (h : Reads r bs a c)
    (hg : ∀ a', g a' = g a → a' = a) :
    Reads (r >>= fun x => Pure.pure (g x)) bs (g a) c := by
  have := h.bind (f := fun x => Pure.pure (g x)) (.pure (a := g a)) fun a' => .pure (hg a')
  simpa using this

theorem gives {r : ByteReader ε α} (h : Reads r bs a c) (hc : c) : Gives r bs a :=
  fun rest => (h rest rest).mpr ⟨hc, rfl⟩

/-- A reader that cannot return `a` reads nothing as `a`. -/
theorem of_returns {r : ByteReader ε α} (h : Returns r (· ≠ a)) : Reads r bs a False := by
  intro rest rest'
  exact ⟨fun hr => absurd rfl (h _ _ _ hr), fun hr => hr.1.elim⟩

/-- Sequencing after a reader that cannot fail on the bytes at hand. -/
theorem gives_bind {r : ByteReader ε α} {f : α → ByteReader ε β} (h : Gives r bs a)
    (h' : Reads (f a) bs' b c) : Reads (r >>= f) (bs ++ bs') b c := by
  intro rest rest'
  rw [← h', bind_eq_ok_iff, List.append_assoc, h]
  constructor
  · intro ⟨a', mid, he, hf⟩
    cases he
    exact hf
  · exact fun hf => ⟨a, _, rfl, hf⟩

theorem gives_nil_bind {r : ByteReader ε α} {f : α → ByteReader ε β} (h : Gives r [] a)
    (h' : Reads (f a) bs b c) : Reads (r >>= f) bs b c := gives_bind h h'

theorem times {r : ByteReader ε α} {w : α → List UInt8} {fits : α → Prop}
    (h : ∀ a, Reads r (w a) a (fits a)) (as : List α) :
    Reads (times r as.length) (as.flatMap w) as (∀ a ∈ as, fits a) := by
  induction as with
  | nil => exact Reads.pure.congr (by simp)
  | cons a as ih =>
    have htail := ih.bind_pure (g := (a :: ·)) fun as' e => (List.cons.inj e).2
    refine ((h a).bind htail ?_).congr (by simp)
    exact fun a' => .bind fun as' => .pure fun e => (List.cons.inj e).1

end Reads

end ByteReader

/-! ## Big-endian numbers -/

namespace BigEndian

/-- The `k` bytes of `n` modulo `256 ^ k`, most significant first. -/
def bytes : Nat → Nat → List UInt8
  | 0, _ => []
  | k + 1, n => bytes k (n / 256) ++ [UInt8.ofNat n]

/-- The number that some bytes spell. -/
def toNat (bs : List UInt8) : Nat := bs.foldl (fun n b => 256 * n + b.toNat) 0

@[simp] theorem length_bytes (k n : Nat) : (bytes k n).length = k := by
  induction k generalizing n with
  | zero => rfl
  | succ k ih => simp [bytes, ih]

/-- A `k` byte number. -/
def read (e : ε) (k : Nat) : ByteReader ε Nat := do
  return toNat (← ByteReader.take e k)

theorem toNat_bytes (k n : Nat) : toNat (bytes k n) = n % 256 ^ k := by
  induction k generalizing n with
  | zero => simp [bytes, toNat, Nat.mod_one]
  | succ k ih =>
    have h : toNat (bytes (k + 1) n) = 256 * toNat (bytes k (n / 256)) + n % 256 := by
      simp [toNat, bytes, List.foldl_append]
    rw [h, ih, Nat.pow_succ, Nat.mul_comm (256 ^ k), Nat.mod_mul]
    omega

theorem gives_read (e : ε) (k n : Nat) :
    ByteReader.Gives (read e k) (bytes k n) (n % 256 ^ k) :=
  (ByteReader.Gives.take (length_bytes k n)).bind_pure (by rw [toNat_bytes])

end BigEndian
