import SimAgentNet.Data.Wire

/-! # Records under a length

A log of records, each under its length in a fixed number of little-endian bytes. What has been
written is read back; a log that ends within a record is refused. -/

/-- What is wrong with a log: it ends within a length or within a payload, or a payload is not
what it should be. -/
inductive Records.Fault (ε : Type) where
  | partialHeader
  | partialRecord
  | payload (e : ε)
deriving DecidableEq

namespace Records
variable {ε α : Type} (w : Nat) (decode : List UInt8 → Except ε α)

/-- A length as bytes. -/
def header (n : Nat) : List UInt8 := (BigEndian.bytes w n).reverse

def headerValue (bytes : List UInt8) : Nat := BigEndian.toNat bytes.reverse

/-- A payload under its length. -/
def record (payload : List UInt8) : List UInt8 := header w payload.length ++ payload

def log (payloads : List (List UInt8)) : List UInt8 := payloads.flatMap (record w)

/-- Reads the next record. -/
def next (bytes : List UInt8) : Except (Fault ε) (α × List UInt8) := do
  if bytes.length < w then .error .partialHeader else
  let len := headerValue (bytes.take w)
  let rest := bytes.drop w
  if rest.length < len then .error .partialRecord else
  let a ← (decode (rest.take len)).mapError .payload
  return (a, rest.drop len)

/-- Reads records until the bytes end; `fuel` bounds their number. -/
def readUpTo (fuel : Nat) (bytes : List UInt8) : Except (Fault ε) (List α) :=
  match fuel with
  | 0 => .ok []
  | fuel + 1 =>
    if bytes = [] then .ok []
    else do
      let (a, rest) ← next w decode bytes
      return a :: (← readUpTo fuel rest)

/-- A record takes at least one byte, so as many records as bytes will do. -/
def read (bytes : List UInt8) : Except (Fault ε) (List α) := readUpTo w decode bytes.length bytes

variable {w decode}

@[simp] theorem length_header (n : Nat) : (header w n).length = w := by
  simp [header]

theorem headerValue_header {n : Nat} (h : n < 256 ^ w) : headerValue (header w n) = n := by
  rw [headerValue, header, List.reverse_reverse, BigEndian.toNat_bytes, Nat.mod_eq_of_lt h]

theorem length_record (payload : List UInt8) : (record w payload).length = w + payload.length := by
  rw [record, List.length_append, length_header]

theorem record_ne_nil (hw : 0 < w) (payload : List UInt8) : record w payload ≠ [] := by
  intro h
  have hlen := length_record (w := w) payload
  rw [h, List.length_nil] at hlen
  omega

/-- What `next` does with bytes that begin with a length. -/
theorem next_header_append {n : Nat} (hn : n < 256 ^ w) (rest : List UInt8) :
    next w decode (header w n ++ rest) =
      if rest.length < n then .error .partialRecord
      else ((decode (rest.take n)).mapError .payload).map fun a => (a, rest.drop n) := by
  have hlen : ¬(header w n ++ rest).length < w := by
    rw [List.length_append, length_header]
    omega
  unfold next
  rw [if_neg hlen, List.take_left' (length_header n), List.drop_left' (length_header n),
    headerValue_header hn]
  dsimp only
  split
  · rfl
  · cases decode (rest.take n) <;> rfl

theorem next_record_append {payload rest : List UInt8} (hlen : payload.length < 256 ^ w)
    (h : decode payload = .ok a) : next w decode (record w payload ++ rest) = .ok (a, rest) := by
  rw [record, List.append_assoc, next_header_append hlen, if_neg, List.take_left, List.drop_left, h]
  · rfl
  · rw [List.length_append]
    omega

/-- A record that is cut off is not read. -/
theorem next_part {payload part : List UInt8} (hlen : payload.length < 256 ^ w)
    (hpart : part <+: record w payload) (hne : part ≠ record w payload) :
    ∃ e, next w decode part = .error e := by
  by_cases hshort : part.length < w
  · refine ⟨.partialHeader, ?_⟩
    unfold next
    exact if_pos hshort
  · obtain ⟨rest, hrest⟩ := hpart
    have hheader : header w payload.length <+: part := by
      refine List.prefix_of_prefix_length_le (List.prefix_append _ _) ⟨rest, hrest⟩ ?_
      rw [length_header]
      omega
    obtain ⟨body, rfl⟩ := hheader
    refine ⟨.partialRecord, ?_⟩
    rw [next_header_append hlen, if_pos]
    have hrestpos : rest ≠ [] := by
      rintro rfl
      exact hne (by rw [← hrest, List.append_nil])
    have hlength := congrArg List.length hrest
    have hpos := List.length_pos_iff.mpr hrestpos
    rw [length_record, List.length_append, List.length_append, length_header] at hlength
    omega

/-- A record read takes bytes. -/
theorem length_of_next (hw : 0 < w) (h : next w decode bytes = .ok (a, rest)) :
    rest.length < bytes.length := by
  unfold next at h
  dsimp only at h
  obtain ⟨hlong, h⟩ := Except.guard_eq_ok_iff.mp h
  obtain ⟨-, h⟩ := Except.guard_eq_ok_iff.mp h
  obtain ⟨value, hvalue, h⟩ := Except.bind_eq_ok_iff.mp h
  cases h
  rw [List.length_drop, List.length_drop]
  omega

/-- More fuel than bytes changes nothing. -/
theorem readUpTo_eq_read (hw : 0 < w) {fuel : Nat} (h : bytes.length ≤ fuel) :
    readUpTo w decode fuel bytes = read w decode bytes := by
  induction fuel using Nat.strongRecOn generalizing bytes with
  | ind fuel ih =>
    unfold read
    cases bytes with
    | nil => cases fuel <;> rfl
    | cons b bytes =>
      cases fuel with
      | zero => cases h
      | succ fuel =>
        rw [List.length_cons, readUpTo, readUpTo, if_neg (List.cons_ne_nil _ _),
          if_neg (List.cons_ne_nil _ _)]
        cases hnext : next w decode (b :: bytes) with
        | error e => rfl
        | ok result =>
          have hrest := Nat.le_of_lt_succ (length_of_next hw hnext)
          have hfuel := Nat.le_of_succ_le_succ h
          have hsame : readUpTo w decode fuel result.2 = readUpTo w decode bytes.length result.2 := by
            obtain hlt | heq := hfuel.lt_or_eq
            · rw [ih fuel (Nat.lt_succ_self _) (hrest.trans hfuel),
                ih bytes.length (hlt.trans (Nat.lt_succ_self _)) hrest]
            · rw [heq]
          rw [Except.ok_bind, Except.ok_bind]
          dsimp only
          rw [hsame]

theorem read_nil : read w decode [] = .ok [] := rfl

/-- The reading loop, one record on. -/
theorem read_eq (hw : 0 < w) {bytes : List UInt8} (hne : bytes ≠ []) :
    read w decode bytes = (do
      let (a, rest) ← next w decode bytes
      return a :: (← read w decode rest)) := by
  obtain ⟨b, bytes, rfl⟩ := List.exists_cons_of_ne_nil hne
  unfold read
  rw [List.length_cons, readUpTo, if_neg hne]
  cases hnext : next w decode (b :: bytes) with
  | error e => rfl
  | ok result =>
    have hrest := Nat.le_of_lt_succ (length_of_next hw hnext)
    rw [Except.ok_bind, Except.ok_bind]
    dsimp only
    rw [readUpTo_eq_read hw hrest]
    rfl

theorem read_record_append (hw : 0 < w) {payload rest : List UInt8}
    (hlen : payload.length < 256 ^ w) (h : decode payload = .ok a) :
    read w decode (record w payload ++ rest) = (a :: ·) <$> read w decode rest := by
  rw [read_eq hw (by simp [record_ne_nil hw]), next_record_append hlen h]
  rfl

/-- A payload that can be logged: its length fits, and it is read as `a`. -/
structure Holds (w : Nat) (decode : List UInt8 → Except ε α) (a : α) (payload : List UInt8) :
    Prop where
  length : payload.length < 256 ^ w
  decode : decode payload = .ok a

/-- A log is read up to its end, and what follows after it. -/
theorem read_log_append (hw : 0 < w) {as : List α} {payloads : List (List UInt8)}
    (h : List.Forall₂ (Holds w decode) as payloads) (rest : List UInt8) :
    read w decode (log w payloads ++ rest) = (as ++ ·) <$> read w decode rest := by
  induction h with
  | nil =>
    rw [log, List.flatMap_nil, List.nil_append]
    cases read w decode rest <;> rfl
  | cons h _ ih =>
    unfold log at ih ⊢
    rw [List.flatMap_cons, List.append_assoc, read_record_append hw h.length h.decode, ih]
    cases read w decode rest <;> rfl

theorem read_log (hw : 0 < w) (h : List.Forall₂ (Holds w decode) as payloads) :
    read w decode (log w payloads) = .ok as := by
  have hread := read_log_append hw h []
  rw [List.append_nil, read_nil] at hread
  rw [hread]
  exact congrArg Except.ok (List.append_nil _)

/-- A record is read in front of whatever follows. -/
theorem next_append (h : next w decode bytes = .ok (a, left)) (rest : List UInt8) :
    next w decode (bytes ++ rest) = .ok (a, left ++ rest) := by
  unfold next at h ⊢
  dsimp only at h ⊢
  obtain ⟨hlong, h⟩ := Except.guard_eq_ok_iff.mp h
  obtain ⟨hwhole, h⟩ := Except.guard_eq_ok_iff.mp h
  have htake : (bytes ++ rest).take w = bytes.take w :=
    List.take_append_of_le_length (Nat.le_of_not_lt hlong)
  have hdrop : (bytes ++ rest).drop w = bytes.drop w ++ rest :=
    List.drop_append_of_le_length (Nat.le_of_not_lt hlong)
  rw [if_neg, htake, hdrop, if_neg, List.take_append_of_le_length (Nat.le_of_not_lt hwhole),
    List.drop_append_of_le_length (Nat.le_of_not_lt hwhole)]
  · obtain ⟨a', ha', h⟩ := Except.bind_eq_ok_iff.mp h
    cases h
    rw [ha']
    rfl
  · rw [List.length_append]
    omega
  · rw [List.length_append]
    omega

/-- Bytes that can be read can be read in front of others. -/
theorem read_append (hw : 0 < w) {bytes : List UInt8} {as : List α}
    (h : read w decode bytes = .ok as) (rest : List UInt8) :
    read w decode (bytes ++ rest) = (as ++ ·) <$> read w decode rest := by
  induction hn : bytes.length using Nat.strongRecOn generalizing bytes as with
  | ind n ih =>
    by_cases hne : bytes = []
    · subst hne
      cases h
      rw [List.nil_append]
      cases read w decode rest <;> rfl
    · rw [read_eq hw hne] at h
      obtain ⟨⟨a, left⟩, hnext, h⟩ := Except.bind_eq_ok_iff.mp h
      obtain ⟨as', has, h⟩ := Except.bind_eq_ok_iff.mp h
      cases h
      rw [read_eq hw (List.append_ne_nil_of_left_ne_nil hne _), next_append hnext]
      rw [Except.ok_bind]
      dsimp only
      rw [ih left.length (hn ▸ length_of_next hw hnext) has rfl]
      cases read w decode rest <;> rfl

/-- A log that is cut within a record is refused. -/
theorem read_cut (hw : 0 < w) {as : List α} {payloads : List (List UInt8)}
    (h : List.Forall₂ (Holds w decode) as payloads) {k : Nat}
    (hk : k < (log w payloads).length)
    (hcut : ∀ i ≤ payloads.length, k ≠ (log w (payloads.take i)).length) :
    ∃ e, read w decode ((log w payloads).take k) = .error e := by
  induction h generalizing k with
  | nil => cases hk
  | @cons a payload as payloads h _ ih =>
    have hlog : log w (payload :: payloads) = record w payload ++ log w payloads := rfl
    have hzero : k ≠ 0 := hcut 0 (Nat.zero_le _)
    have hone : k ≠ (record w payload).length := by
      have hone := hcut 1 (Nat.succ_le_succ (Nat.zero_le _))
      rwa [List.take_succ_cons, List.take_zero, log, List.flatMap_singleton] at hone
    rw [hlog, List.length_append] at hk
    rw [hlog, List.take_append]
    obtain hlt | hge := Nat.lt_or_ge k (record w payload).length
    · have hpart : (record w payload).take k ≠ [] := by
        rw [ne_eq, List.take_eq_nil_iff, not_or]
        exact ⟨hzero, record_ne_nil hw payload⟩
      have hne : (record w payload).take k ≠ record w payload := by
        intro heq
        have hlen := congrArg List.length heq
        rw [List.length_take] at hlen
        omega
      obtain ⟨e, he⟩ : ∃ e, next w decode _ = .error e :=
        next_part h.length (List.take_prefix _ _) hne
      rw [Nat.sub_eq_zero_of_le hlt.le, List.take_zero, List.append_nil, read_eq hw hpart, he]
      exact ⟨e, rfl⟩
    · rw [List.take_of_length_le hge, read_record_append hw h.length h.decode]
      obtain ⟨e, he⟩ := ih (k := k - (record w payload).length) (by omega) fun i hi heq => by
        refine hcut (i + 1) (Nat.succ_le_succ hi) ?_
        have htake : log w ((payload :: payloads).take (i + 1)) =
            record w payload ++ log w (payloads.take i) := rfl
        rw [htake, List.length_append, ← heq]
        omega
      rw [he]
      exact ⟨e, rfl⟩

end Records
