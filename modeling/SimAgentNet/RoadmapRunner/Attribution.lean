import SimAgentNet.RoadmapRunner.ProofLaunch

/-! # Whose receipt a proof returns

A receipt is looked up by the effect id of its command alone. It is the receipt of the leaf that
is called when no other leaf with the same effect id is ever called, which the catalog does not
check. -/

namespace SimAgentNet.RoadmapRunner

section
variable {σ ρ L R P : Type} {api : JournalApi σ} {j : ExecutionJournal}
  {sandbox : SandboxApi L R P} {store : ProofReceiptStore ρ}

/-! ## Launches -/

/-- One launch: the command, what the launcher answered, and the time that the caller gave. -/
structure Launch (L R P : Type) where
  command : CommandProof L
  request : R
  attempt : SandboxAttempt P
  observedAt : String

def Launch.receipt (sandbox : SandboxApi L R P) (l : Launch L R P) : TypedProofReceipt :=
  normalize sandbox l.command l.request l.attempt l.observedAt

/-- The launch that the next step of a call makes. -/
def ProofCall.launches (sandbox : SandboxApi L R P) (c : ProofCall L R P) : List (Launch L R P) :=
  match c.point with
  | .launch command =>
    match command.sandboxRequest sandbox with
    | .error _ => []
    | .ok request => [⟨command, request, c.execution.launcher request, c.execution.observedAt⟩]
  | _ => []

theorem normalize_proof (command : CommandProof L) (request : R) (attempt : SandboxAttempt P)
    (observedAt : String) :
    (normalize sandbox command request attempt observedAt).proof = command.name := by
  cases attempt <;> rfl

/-- A leaf is found under its own name. -/
theorem ProofCatalog.name_of_leaf {catalog : ProofCatalog L} {found : ProofLeaf L}
    (h : catalog.leaf name = .ok found) : found.name = name := by
  unfold ProofCatalog.leaf at h
  split at h
  · cases h
    exact (catalog.valid ‹_›).1
  · cases h

/-! ## Histories -/

/-- The store returns what was recorded and makes up no receipt; it may keep or drop older ones. -/
def ProofReceiptStore.Lawful (store : ProofReceiptStore ρ) : Prop :=
  ∀ {receipts e receipt e' r}, store.inspect (store.record e receipt receipts) e' = some r →
    e' = e ∧ r = receipt ∨ store.inspect receipts e' = some r

variable (api j sandbox store) (catalog : ProofCatalog L) (s : σ) (receipts : ρ) in
/-- A run in which every call is for a leaf of the catalog, with the calls that began in it and the
launches that were made. -/
inductive History :
    LaunchSystem σ ρ L R P → List (JournaledProofExecution L R P) → List (Launch L R P) → Prop
  | initial : History (.initial s receipts) [] []
  | begin {x : JournaledProofExecution L R P} : History ⟨w, calls⟩ begun log →
    HoldsPrefix api j w.backend st → x.catalog = catalog →
    History ⟨w, ⟨x, st, .begin⟩ :: calls⟩ (x :: begun) log
  | step {c : ProofCall L R P} : History ⟨w, pre ++ c :: post⟩ begun log →
    c.step api j sandbox store w = (c', w') →
    History ⟨w', pre ++ c' :: post⟩ begun (log ++ c.launches sandbox)
  | stop : History ⟨w, pre ++ c :: post⟩ begun log → History ⟨w, pre ++ post⟩ begun log
  | write : History ⟨w, calls⟩ begun log →
    j.append api expected record objects w.backend = (.ok head, backend) →
    History ⟨{ w with backend, appended := w.appended ++ [record] }, calls⟩ begun log
  | refused : History ⟨w, calls⟩ begun log →
    j.append api expected record objects w.backend = (.error e, backend) →
    History ⟨{ w with backend }, calls⟩ begun log
  | put : History ⟨w, calls⟩ begun log → (api.put value w.backend).2 = backend →
    History ⟨{ w with backend }, calls⟩ begun log

/-- A history is a sequence of moves. -/
theorem History.moves (h : History api j sandbox store catalog s receipts y begun log) :
    Relation.ReflTransGen (Moves api j sandbox store) (.initial s receipts) y := by
  induction h with
  | initial => exact .refl
  | begin _ hpre _ ih => exact ih.tail (.begin hpre)
  | step _ hs ih => exact ih.tail (.step hs)
  | stop _ ih => exact ih.tail .stop
  | write _ ha ih => exact ih.tail (.write ha)
  | refused _ ha ih => exact ih.tail (.refused ha)
  | put _ hput ih => exact ih.tail (.put hput)

/-! ## The launch behind a receipt -/

/-- The receipt is that of a launch under the effect id. -/
def LaunchedUnder (sandbox : SandboxApi L R P) (log : List (Launch L R P)) (e : String)
    (receipt : TypedProofReceipt) : Prop :=
  ∃ l ∈ log, l.command.effectId = e ∧ l.receipt sandbox = receipt

theorem LaunchedUnder.append (h : LaunchedUnder sandbox log e receipt) :
    LaunchedUnder sandbox (log ++ log') e receipt := by
  obtain ⟨l, hl, hrest⟩ := h
  exact ⟨l, List.mem_append_left _ hl, hrest⟩

namespace ProofCall

/-- The command is the leaf that was called. -/
def Calls (c : ProofCall L R P) (command : CommandProof L) : Prop :=
  c.execution.catalog.leaf c.execution.name = .ok (.command command)

/-- What is known of the receipt that a call holds or returns. -/
def Attributed (sandbox : SandboxApi L R P) (log : List (Launch L R P)) (c : ProofCall L R P) :
    Prop :=
  match c.point with
  | .begin => True
  | .admitIntent command | .publishIntent command _ _ | .launch command => c.Calls command
  | .store command receipt | .admitReceipt command receipt | .publishReceipt command receipt _ _ =>
    c.Calls command ∧ LaunchedUnder sandbox log command.effectId receipt
  | .done (.ok receipt) =>
    ∀ command, c.Calls command → LaunchedUnder sandbox log command.effectId receipt
  | .done (.error _) => True

theorem Attributed.append {c : ProofCall L R P} (h : c.Attributed sandbox log) :
    c.Attributed sandbox (log ++ log') := by
  unfold Attributed at h ⊢
  split
  · trivial
  · simp only [*] at h; exact h
  · simp only [*] at h; exact h
  · simp only [*] at h; exact h
  · simp only [*] at h; exact ⟨h.1, h.2.append⟩
  · simp only [*] at h; exact ⟨h.1, h.2.append⟩
  · simp only [*] at h; exact ⟨h.1, h.2.append⟩
  · simp only [*] at h; exact fun command hc => (h command hc).append
  · trivial

end ProofCall

/-- Every receipt in the store and every receipt of a call is that of a launch, and every launch is
of a command that was called. -/
structure Attribution (sandbox : SandboxApi L R P) (store : ProofReceiptStore ρ)
    (catalog : ProofCatalog L) (y : LaunchSystem σ ρ L R P)
    (begun : List (JournaledProofExecution L R P)) (log : List (Launch L R P)) : Prop where
  catalogued : ∀ c ∈ y.calls, c.execution.catalog = catalog
  known : ∀ c ∈ y.calls, c.execution ∈ begun
  launched : ∀ l ∈ log, ∃ x ∈ begun, catalog.leaf x.name = .ok (.command l.command)
  stored : ∀ e receipt, store.inspect y.world.receipts e = some receipt →
    LaunchedUnder sandbox log e receipt
  calls : ∀ c ∈ y.calls, c.Attributed sandbox log

section
variable {catalog : ProofCatalog L} {w w' : World σ ρ} {pre post : List (ProofCall L R P)}
  {c c' : ProofCall L R P} {begun : List (JournaledProofExecution L R P)}
  {log : List (Launch L R P)}

/-- A step of one call, from what it launches, what it stores and where the call stands after it. -/
theorem Attribution.move (h : Attribution sandbox store catalog ⟨w, pre ++ c :: post⟩ begun log)
    (hx : c'.execution = c.execution)
    (hlog : ∀ l ∈ log', ∃ x ∈ begun, catalog.leaf x.name = .ok (.command l.command))
    (hstored : ∀ e receipt, store.inspect w'.receipts e = some receipt →
      LaunchedUnder sandbox (log ++ log') e receipt)
    (hc : c'.Attributed sandbox (log ++ log')) :
    Attribution sandbox store catalog ⟨w', pre ++ c' :: post⟩ begun (log ++ log') := by
  have hmem : c ∈ pre ++ c :: post := List.mem_append_right _ List.mem_cons_self
  have hcalls {p : ProofCall L R P → Prop} (hc' : p c') (hold : ∀ x ∈ pre ++ c :: post, p x) :
      ∀ x ∈ pre ++ c' :: post, p x := by
    intro x hx
    rcases List.mem_append.mp hx with hx | hx
    · exact hold x (List.mem_append_left _ hx)
    · rcases List.mem_cons.mp hx with rfl | hx
      · exact hc'
      · exact hold x (List.mem_append_right _ (List.mem_cons_of_mem _ hx))
  refine ⟨hcalls (hx ▸ h.catalogued c hmem) h.catalogued, hcalls (hx ▸ h.known c hmem) h.known, ?_,
    hstored, hcalls hc fun x hx => (h.calls x hx).append⟩
  intro l hl
  rcases List.mem_append.mp hl with hl | hl
  · exact h.launched l hl
  · exact hlog l hl

/-- A step that neither launches nor stores. -/
theorem Attribution.keep (h : Attribution sandbox store catalog ⟨w, pre ++ c :: post⟩ begun log)
    (hx : c'.execution = c.execution) (hreceipts : w'.receipts = w.receipts)
    (hc : c'.Attributed sandbox log) :
    Attribution sandbox store catalog ⟨w', pre ++ c' :: post⟩ begun log := by
  have hmove : Attribution sandbox store catalog ⟨w', pre ++ c' :: post⟩ begun (log ++ []) := by
    refine h.move hx (List.forall_mem_nil _) ?_ ?_
    · rw [hreceipts, List.append_nil]
      exact h.stored
    · rw [List.append_nil]
      exact hc
  rwa [List.append_nil] at hmove

theorem admitRecord_attributed {next : List JournalObject → JournalEntry → ProofPoint L}
    (hnext : ∀ objects entry,
      ({ c with point := next objects entry } : ProofCall L R P).Attributed sandbox log) :
    (c.admitRecord api j record next w).execution = c.execution ∧
      (c.admitRecord api j record next w).Attributed sandbox log := by
  unfold ProofCall.admitRecord
  split
  · exact ⟨rfl, trivial⟩
  · exact ⟨rfl, hnext _ _⟩

theorem publish_attributed {next : ProofPoint L}
    (hnext : ∀ st, ({ c with state := st, point := next } : ProofCall L R P).Attributed sandbox log)
    (h : c.publish api record objects entry next w = (c', w')) :
    c'.execution = c.execution ∧ w'.receipts = w.receipts ∧ c'.Attributed sandbox log := by
  unfold ProofCall.publish at h
  split at h
  · cases h
    exact ⟨rfl, rfl, trivial⟩
  · cases h
    exact ⟨rfl, rfl, hnext _⟩

/-- What a call finds in the store is attributed as the store is. -/
theorem choose_attributed (h : Attribution sandbox store catalog ⟨w, pre ++ c :: post⟩ begun log)
    (hcommand : c.Calls command) :
    ({ c with point := c.choose store command w.receipts } : ProofCall L R P).Attributed sandbox
      log := by
  unfold ProofCall.choose
  split
  · split
    · trivial
    · rename_i receipt hr
      have hunder := h.stored command.effectId receipt hr
      split
      · exact ⟨hcommand, hunder⟩
      · intro command' hcommand'
        cases hcommand.symm.trans hcommand'
        exact hunder
  · exact hcommand

theorem Attribution.step (hstore : store.Lawful)
    (h : Attribution sandbox store catalog ⟨w, pre ++ c :: post⟩ begun log)
    (hs : c.step api j sandbox store w = (c', w')) :
    Attribution sandbox store catalog ⟨w', pre ++ c' :: post⟩ begun
      (log ++ c.launches sandbox) := by
  have hmem : c ∈ pre ++ c :: post := List.mem_append_right _ List.mem_cons_self
  have hat := h.calls c hmem
  unfold ProofCall.step at hs
  unfold ProofCall.launches
  cases hp : c.point with
  | begin =>
    simp only [hp, List.append_nil] at hs ⊢
    split at hs
    · cases hs
      exact h.keep rfl rfl trivial
    · rename_i command hleaf
      cases hs
      exact h.keep rfl rfl (choose_attributed h hleaf)
    all_goals
      rename_i hleaf
      cases hs
      refine h.keep rfl rfl fun command hcommand => ?_
      exact nomatch (Except.ok.inj (hleaf.symm.trans hcommand))
  | admitIntent command =>
    simp only [hp, ProofCall.Attributed, List.append_nil] at hs hat ⊢
    cases hs
    have hnext (objects : List JournalObject) (entry : JournalEntry) :
        ({ c with point := .publishIntent command objects entry } : ProofCall L R P).Attributed
          sandbox log := hat
    exact h.keep (admitRecord_attributed hnext).1 rfl (admitRecord_attributed hnext).2
  | publishIntent command objects entry =>
    simp only [hp, ProofCall.Attributed, List.append_nil] at hs hat ⊢
    have hnext (st : RebuiltExecution) :
        ({ c with state := st, point := .launch command } : ProofCall L R P).Attributed sandbox
          log := hat
    obtain ⟨hx, hr, hc⟩ := publish_attributed hnext hs
    exact h.keep hx hr hc
  | launch command =>
    simp only [hp, ProofCall.Attributed] at hs hat ⊢
    cases hrequest : command.sandboxRequest sandbox with
    | error e =>
      simp only [hrequest] at hs
      cases hs
      simp only [List.append_nil]
      exact h.keep rfl rfl trivial
    | ok request =>
      simp only [hrequest] at hs
      cases hs
      refine h.move rfl ?_ (fun e receipt he => (h.stored e receipt he).append) ⟨hat, ?_⟩
      · intro l hl
        cases List.mem_singleton.mp hl
        exact ⟨_, h.known c hmem, h.catalogued c hmem ▸ hat⟩
      · exact ⟨_, List.mem_append_right _ (List.mem_singleton_self _), rfl, rfl⟩
  | store command receipt =>
    simp only [hp, ProofCall.Attributed] at hs hat ⊢
    cases hs
    refine h.move rfl (List.forall_mem_nil _) ?_ ⟨hat.1, hat.2.append⟩
    intro e r he
    obtain ⟨rfl, rfl⟩ | hold := hstore he
    · exact hat.2.append
    · exact (h.stored e r hold).append
  | admitReceipt command receipt =>
    simp only [hp, ProofCall.Attributed, List.append_nil] at hs hat ⊢
    cases hs
    have hnext (objects : List JournalObject) (entry : JournalEntry) :
        ({ c with point := .publishReceipt command receipt objects entry } :
          ProofCall L R P).Attributed sandbox log := hat
    exact h.keep (admitRecord_attributed hnext).1 rfl (admitRecord_attributed hnext).2
  | publishReceipt command receipt objects entry =>
    simp only [hp, ProofCall.Attributed, List.append_nil] at hs hat ⊢
    have hnext (st : RebuiltExecution) :
        ({ c with state := st, point := .done (.ok receipt) } : ProofCall L R P).Attributed sandbox
          log := by
      intro command' hcommand'
      cases hat.1.symm.trans hcommand'
      exact hat.2
    obtain ⟨hx, hr, hc⟩ := publish_attributed hnext hs
    exact h.keep hx hr hc
  | done result =>
    simp only [hp, List.append_nil] at hs ⊢
    cases hs
    exact h

variable {calls calls' : List (ProofCall L R P)}

theorem Attribution.begin (h : Attribution sandbox store catalog ⟨w, calls⟩ begun log)
    (hx : x.catalog = catalog) :
    Attribution sandbox store catalog ⟨w, ⟨x, st, .begin⟩ :: calls⟩ (x :: begun) log := by
  refine ⟨?_, ?_, ?_, h.stored, ?_⟩
  · intro c hc
    rcases List.mem_cons.mp hc with rfl | hc
    · exact hx
    · exact h.catalogued c hc
  · intro c hc
    rcases List.mem_cons.mp hc with rfl | hc
    · exact List.mem_cons_self
    · exact List.mem_cons_of_mem _ (h.known c hc)
  · intro l hl
    obtain ⟨x', hx', hleaf⟩ := h.launched l hl
    exact ⟨x', List.mem_cons_of_mem _ hx', hleaf⟩
  · intro c hc
    rcases List.mem_cons.mp hc with rfl | hc
    · trivial
    · exact h.calls c hc

/-- What neither takes a step of a call nor stores a receipt. -/
theorem Attribution.subset (h : Attribution sandbox store catalog ⟨w, calls⟩ begun log)
    (hreceipts : w'.receipts = w.receipts) (hcalls : calls' ⊆ calls) :
    Attribution sandbox store catalog ⟨w', calls'⟩ begun log :=
  ⟨fun c hc => h.catalogued c (hcalls hc), fun c hc => h.known c (hcalls hc), h.launched,
    hreceipts ▸ h.stored, fun c hc => h.calls c (hcalls hc)⟩

theorem History.attribution (hstore : store.Lawful)
    (hempty : ∀ e, store.inspect receipts e = none)
    (h : History api j sandbox store catalog s receipts y begun log) :
    Attribution sandbox store catalog y begun log := by
  induction h with
  | initial =>
    have hnil {p : ProofCall L R P → Prop} : ∀ c ∈ ([] : List (ProofCall L R P)), p c :=
      fun _ hc => nomatch hc
    refine ⟨hnil, hnil, (fun _ hl => nomatch hl), fun e receipt he => ?_, hnil⟩
    have hnone : store.inspect receipts e = some receipt := he
    rw [hempty e] at hnone
    cases hnone
  | begin _ _ hx ih => exact ih.begin hx
  | step _ hs ih => exact ih.step hstore hs
  | stop _ ih =>
    refine ih.subset rfl fun x hx => ?_
    rcases List.mem_append.mp hx with hx | hx
    · exact List.mem_append_left _ hx
    · exact List.mem_append_right _ (List.mem_cons_of_mem _ hx)
  | write _ _ ih => exact ih.subset rfl (List.Subset.refl _)
  | refused _ _ ih => exact ih.subset rfl (List.Subset.refl _)
  | put _ _ ih => exact ih.subset rfl (List.Subset.refl _)

/-- No two different commands with one effect id are called. -/
def OwnEffects (catalog : ProofCatalog L) (begun : List (JournaledProofExecution L R P)) : Prop :=
  ∀ x ∈ begun, ∀ x' ∈ begun, ∀ command command',
    catalog.leaf x.name = .ok (.command command) →
    catalog.leaf x'.name = .ok (.command command') →
    command.effectId = command'.effectId → command = command'

/-- The receipt of a command is that of a launch of this command, and no launch of another leaf has
the same receipt. -/
def OwnReceipt (sandbox : SandboxApi L R P) (log : List (Launch L R P))
    (command : CommandProof L) (receipt : TypedProofReceipt) : Prop :=
  (∃ l ∈ log, l.command = command ∧ l.receipt sandbox = receipt) ∧
    ∀ l ∈ log, l.receipt sandbox = receipt → l.command = command

/-- In every history in which no two different commands with one effect id are called, every
receipt returned for a command is its own. -/
theorem receipts_attributed (hstore : store.Lawful)
    (hempty : ∀ e, store.inspect receipts e = none)
    (h : History api j sandbox store catalog s receipts y begun log)
    (hown : OwnEffects catalog begun) :
    ∀ c ∈ y.calls, ∀ command receipt, catalog.leaf c.execution.name = .ok (.command command) →
      c.point = .done (.ok receipt) → OwnReceipt sandbox log command receipt := by
  intro c hc command receipt hleaf hdone
  have hattr := h.attribution hstore hempty
  have hunder : LaunchedUnder sandbox log command.effectId receipt := by
    have hat := hattr.calls c hc
    simp only [ProofCall.Attributed, hdone] at hat
    refine hat command ?_
    rw [ProofCall.Calls, hattr.catalogued c hc]
    exact hleaf
  obtain ⟨l, hl, heffect, rfl⟩ := hunder
  obtain ⟨x, hx, hlaunched⟩ := hattr.launched l hl
  have hcommand : l.command = command :=
    hown x hx c.execution (hattr.known c hc) _ _ hlaunched hleaf heffect
  refine ⟨⟨l, hl, hcommand, rfl⟩, fun l' hl' hreceipt => ?_⟩
  -- The receipt names the proof, and the catalog has one leaf of each name.
  have hname : l'.command.name = l.command.name := by
    have hproof := congrArg TypedProofReceipt.proof hreceipt
    rwa [Launch.receipt, Launch.receipt, normalize_proof, normalize_proof] at hproof
  obtain ⟨x', -, hlaunched'⟩ := hattr.launched l' hl'
  have hkey : x'.name = x.name :=
    (ProofCatalog.name_of_leaf hlaunched').symm.trans
      (hname.trans (ProofCatalog.name_of_leaf hlaunched))
  rw [hkey, hlaunched] at hlaunched'
  exact (ProofLeaf.command.inj (Except.ok.inj hlaunched')).symm.trans hcommand

theorem ProofCall.step_execution (c : ProofCall L R P) (w : World σ ρ) :
    (c.step api j sandbox store w).1.execution = c.execution := by
  unfold ProofCall.step ProofCall.admitRecord ProofCall.publish
  repeat' split
  all_goals rfl

theorem ProofCall.run_execution (n : Nat) (c : ProofCall L R P) (w : World σ ρ) :
    (ProofCall.run api j sandbox store n (c, w)).1.execution = c.execution := by
  induction n generalizing c w with
  | zero => rfl
  | succ n ih => exact (ih _ _).trans (c.step_execution w)

/-- A call that is left alone is part of a history. -/
theorem History.run (n : Nat) (pre : List (ProofCall L R P))
    (h : History api j sandbox store catalog s receipts ⟨w, pre ++ c :: post⟩ begun log) :
    ∃ log', History api j sandbox store catalog s receipts
      ⟨(ProofCall.run api j sandbox store n (c, w)).2,
        pre ++ (ProofCall.run api j sandbox store n (c, w)).1 :: post⟩ begun log' := by
  induction n generalizing c w log with
  | zero => exact ⟨log, h⟩
  | succ n ih => exact ih (h.step rfl)

end

end

/-! ## Two leaves with one effect id -/

namespace Sample

theorem receiptStore_lawful : receiptStore.Lawful := by
  intro receipts e receipt e' r h
  change (receipts.insert e receipt).get? e' = some r at h
  rw [SortedMap.get?_insert] at h
  split at h
  · cases h
    exact .inl ⟨‹_›, rfl⟩
  · exact .inr h

/-- The other leaf has the effect id of `command`. -/
def test : CommandProof Unit := { command with name := "test", argv := ["test"] }

def leaves : List (ProofLeaf Unit) := [.command command, .command test]

def executionOf (catalog : ProofCatalog Unit) (name : String) :
    JournaledProofExecution Unit (SandboxDraft Unit) Unit :=
  { execution with catalog, name }

def runLeaf (catalog : ProofCatalog Unit) (name : String) (st : RebuiltExecution) (w : ProofWorld) :=
  ProofCall.run Memory.api journal sandbox receiptStore 7 (⟨executionOf catalog name, st, .begin⟩, w)

/-- The proof that the receipt of a call names. -/
def provedBy (c : ProofCall Unit (SandboxDraft Unit) Unit) : Option String :=
  match c.point with
  | .done (.ok receipt) => some receipt.proof
  | _ => none

/-- A call of `build` on a journal that has been opened. -/
def buildFirst (catalog : ProofCatalog Unit) (backend : Memory.Backend) : Option String := do
  let st ← (journal.rebuild Memory.api backend).toOption
  provedBy (runLeaf catalog "build" st (afterGenesis backend)).1

/-- A call of `test` after one of `build`. -/
def testAfterBuild (catalog : ProofCatalog Unit) (backend : Memory.Backend) : Option String := do
  let st ← (journal.rebuild Memory.api backend).toOption
  let w := (runLeaf catalog "build" st (afterGenesis backend)).2
  let st' ← (journal.rebuild Memory.api w.backend).toOption
  provedBy (runLeaf catalog "test" st' w).1

def isCommand (leaf : Except ProofError (ProofLeaf Unit)) : Bool :=
  match leaf with
  | .ok (.command _) => true
  | _ => false

/-- The journal is opened, a call of `build` returns its own receipt, and a call of `test` after it
that of `build`. -/
theorem calls_evaluated :
    (append genesis [] .empty).1.isOk ∧ buildFirst execution.catalog written = some "build" ∧
    (ProofCatalog.new leaves).map (fun catalog =>
      (isCommand (catalog.leaf "test"), testAfterBuild catalog written)) =
        .ok (true, some "build") := by
  decide +kernel

theorem exists_of_provedBy (h : provedBy c = some name) :
    ∃ receipt, c.point = .done (.ok receipt) ∧ receipt.proof = name := by
  unfold provedBy at h
  split at h
  · cases h
    exact ⟨_, ‹_›, rfl⟩
  · cases h

theorem exists_of_isCommand (h : isCommand leaf = true) : ∃ command, leaf = .ok (.command command) := by
  unfold isCommand at h
  split at h
  · exact ⟨_, rfl⟩
  · cases h

theorem rebuild_of_toOption {backend : Memory.Backend}
    (h : (journal.rebuild Memory.api backend).toOption = some st) :
    journal.rebuild Memory.api backend = .ok st := by
  cases hr : journal.rebuild Memory.api backend with
  | error e => rw [hr] at h; cases h
  | ok st' => rw [hr] at h; cases h; rfl

/-- The journal is opened before the first call. -/
theorem history_opened (catalog : ProofCatalog Unit) :
    History Memory.api journal sandbox receiptStore catalog .empty ∅
      ⟨afterGenesis written, []⟩ [] [] := by
  obtain ⟨head, hhead⟩ := Except.exists_of_isOk calls_evaluated.1
  have hwrite : append genesis [] .empty = (.ok head, written) := by
    rw [← hhead, written]
  exact History.initial.write hwrite

end Sample

open Sample in
theorem receipts_attributed_build :
    ∃ y log receipt, History Memory.api journal sandbox receiptStore execution.catalog .empty ∅ y
        [executionOf execution.catalog "build"] log ∧
      OwnReceipt sandbox log command receipt := by
  have hrun := calls_evaluated.2.1
  have hopened := history_opened execution.catalog
  generalize written = backend at hrun hopened
  obtain ⟨st, hst, hproved⟩ := Option.bind_eq_some_iff.mp hrun
  obtain ⟨receipt, hdone, -⟩ := exists_of_provedBy hproved
  have hbegin := hopened.begin (x := executionOf execution.catalog "build")
    (holdsPrefix_of_rebuild Memory.faithful (rebuild_of_toOption hst)) rfl
  obtain ⟨log, hhistory⟩ := History.run 7 [] hbegin
  have hown : OwnEffects execution.catalog [executionOf execution.catalog "build"] := by
    intro x hx x' hx' c c' hc hc' _
    cases List.mem_singleton.mp hx
    cases List.mem_singleton.mp hx'
    cases hc.symm.trans hc'
    rfl
  refine ⟨_, log, receipt, hhistory, ?_⟩
  refine receipts_attributed receiptStore_lawful (fun _ => rfl) hhistory hown _ List.mem_cons_self
    _ _ ?_ hdone
  rw [ProofCall.run_execution]
  rfl

open Sample in
/-- Two leaves with one effect id are accepted, and the second call returns the receipt of the first
leaf. -/
theorem shared_effect_substituted :
    ∃ catalog y begun log, ProofCatalog.new leaves = .ok catalog ∧
      History Memory.api journal sandbox receiptStore catalog .empty ∅ y begun log ∧
      ∃ c ∈ y.calls, ∃ test receipt, catalog.leaf c.execution.name = .ok (.command test) ∧
        c.point = .done (.ok receipt) ∧ ¬OwnReceipt sandbox log test receipt := by
  obtain ⟨catalog, hnew, hrun⟩ := Except.map_eq_ok_iff.mp calls_evaluated.2.2
  obtain ⟨hcommand, hrun⟩ := Prod.mk.inj hrun
  have hopened := history_opened catalog
  generalize written = backend at hrun hopened
  obtain ⟨st, hst, hrun⟩ := Option.bind_eq_some_iff.mp hrun
  obtain ⟨st', hst', hproved⟩ := Option.bind_eq_some_iff.mp hrun
  obtain ⟨test, htest⟩ := exists_of_isCommand hcommand
  obtain ⟨receipt, hdone, hproof⟩ := exists_of_provedBy hproved
  have hfirst := hopened.begin (x := executionOf catalog "build")
    (holdsPrefix_of_rebuild Memory.faithful (rebuild_of_toOption hst)) rfl
  obtain ⟨log, hfirst⟩ := History.run 7 [] hfirst
  have hsecond := hfirst.begin (x := executionOf catalog "test")
    (holdsPrefix_of_rebuild Memory.faithful (rebuild_of_toOption hst')) rfl
  obtain ⟨log, hsecond⟩ := History.run 7 [] hsecond
  refine ⟨catalog, _, _, log, hnew, hsecond, _, List.mem_cons_self, test, receipt, ?_, hdone, ?_⟩
  · rw [ProofCall.run_execution]
    exact htest
  · rintro ⟨⟨l, -, hl, hreceipt⟩, -⟩
    have hname : receipt.proof = test.name := by
      rw [← hreceipt, Launch.receipt, normalize_proof, hl]
    have htest := ProofCatalog.name_of_leaf htest
    rw [hproof, show test.name = "test" from htest] at hname
    exact absurd hname (by decide)

end SimAgentNet.RoadmapRunner
