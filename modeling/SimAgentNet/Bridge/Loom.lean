import SimAgentNet.Bridge.Packet
import SimAgentNet.Data.SortedMap

/-! # Loom weaves

The rows of a weave are checked against the moves that may follow the packet, the packet's
capabilities, and what a row may refer to. Validated mode checks all rows at once; woven mode asks
for one row after the other and checks each behind the rows it has accepted. -/

namespace SimAgentNet.Bridge
variable {Mode Warrant : Type}

structure BridgeWeaveRow (Mode : Type) where
  slot : String
  head : Symbol
  roles : List (Symbol × Expr Mode)

/-- What may follow a packet, without the shape object that backs the heads. -/
structure FrontierMenu (Mode : Type) where
  slots : List (String × Expr Mode)
  heads : Expr Mode
  grammar : String

/-- A hole of a frame, with the descriptor of its shape. -/
structure FrameHole (Mode : Type) where
  name : Symbol
  shape : Expr Mode

/-- What the codec's standard book says, and how the kernel looks up fields and writes values. -/
structure LoomBook (Mode : Type) where
  legalReplyIntents : List Symbol → List Symbol
  /-- The frame that a payload names. -/
  frame : Expr Mode → Except Error Symbol
  requireSpec : Symbol → Except Error (List (FrameHole Mode))
  /-- The grammar of one of the given symbols. -/
  oneOfGrammar : List Symbol → Except Error String
  weaveToExpr : List (BridgeWeaveRow Mode) → Expr Mode
  field : Expr Mode → String → Option (Expr Mode)
  debugExpr : Expr Mode → String
  debugSymbols : List Symbol → String

def frameKind : Symbol := .qualified "bridge" "Frame"
def weaveKind : Symbol := .qualified "bridge" "Weave"

section Check
variable (book : LoomBook Mode)

/-! ## The frontier -/

def partSlots (part : BridgePart Mode) : Except Error (List (String × Expr Mode)) := do
  let frame ← book.frame part.payload
  let holes ← book.requireSpec frame
  return holes.map fun hole => (part.id.display ++ "." ++ hole.name.display, hole.shape)

def frameSlots (packet : BridgePacket Mode Warrant) : Except Error (List (String × Expr Mode)) := do
  let slots ← (packet.body.filter (·.kind = frameKind)).mapM (partSlots book)
  return slots.flatten

def frontier (packet : BridgePacket Mode Warrant) : Except Error (FrontierMenu Mode) := do
  let slots ← frameSlots book packet
  let heads := book.legalReplyIntents [packet.header.moveKind]
  let grammar ← book.oneOfGrammar heads
  return { slots, grammar, heads := .map [
    Expr.entry "shape" (.symbol (.qualified "shape" "OneOf")),
    Expr.entry "choices" (.vector (heads.map .symbol))] }

def nextFrontierMenu (packet : BridgePacket Mode Warrant) : Except Error (FrontierMenu Mode) :=
  frontier book packet

/-! ## The checks of a row -/

def loomObligation (path reason expected actual : String) (validReplacements : List String) :
    BridgeObligation :=
  ⟨path, reason, expected, actual, validReplacements⟩

def packetRefs (packet : BridgePacket Mode Warrant) : SortedSet String :=
  .ofList ((packet.body.filter (·.kind ≠ weaveKind)).map (·.id.display) ++
    packet.header.context.map Symbol.display)

def choiceSymbol : Expr Mode → Option Symbol
  | .symbol symbol => some symbol
  | _ => none

def headChoices (menu : FrontierMenu Mode) : List Symbol :=
  match book.field menu.heads "choices" with
  | some (.vector items) | some (.list items) => items.filterMap choiceSymbol
  | _ => []

def requiredHeadCapability (head : Symbol) : Option Symbol :=
  if head.name = "fetch" then some (.qualified "bridge" "fetch")
  else if head.name = "patch" then some (.qualified "bridge" "patch")
  else none

def isToken (text : List Char) : Bool :=
  !text.isEmpty && text.all fun c =>
    c.toNat < 128 && !c.isUnicodeWhitespace && c ≠ '\x7b' && c ≠ '\x7d'

def roleRef : Expr Mode → Option String
  | .symbol symbol => some symbol.display
  | .string text =>
    match text.toList with
    | '@' :: slot => if isToken slot then some (.ofList slot) else none
    | _ => none
  | _ => none

def checkRoleRef (path : String) (value : Expr Mode) (availableRefs allSlots : SortedSet String) :
    List BridgeObligation :=
  match roleRef value with
  | none =>
    [loomObligation path "LOOM role binding is not a reference" "symbol or @slot string"
      (book.debugExpr value) availableRefs.elems]
  | some reference =>
    if reference ∈ availableRefs then []
    else
      [loomObligation path
        (if reference ∈ allSlots then "LOOM role binding is a forward reference"
          else "LOOM role binding is dangling")
        "previous row slot or packet context reference" reference availableRefs.elems]

def checkHead (path : String) (menu : FrontierMenu Mode) (row : BridgeWeaveRow Mode) :
    List BridgeObligation :=
  let headNames := (headChoices book menu).map Symbol.display
  if row.head ∈ headChoices book menu then []
  else
    [loomObligation (path ++ "/head") "LOOM row selected an off-menu head"
      (", ".intercalate headNames) row.head.display headNames]

def checkSlot (path : String) (row : BridgeWeaveRow Mode) (definedSlots : SortedSet String) :
    List BridgeObligation :=
  if row.slot ∈ definedSlots then
    [loomObligation (path ++ "/slot") "LOOM row redefines a slot" "fresh row slot" row.slot []]
  else []

def checkCapability (path : String) (row : BridgeWeaveRow Mode) (ceiling : List Symbol) :
    List BridgeObligation :=
  match requiredHeadCapability row.head with
  | none => []
  | some required =>
    if required ∈ ceiling then []
    else
      [loomObligation (path ++ "/head") "LOOM row head requires a missing capability"
        required.display (book.debugSymbols ceiling) [required.display]]

structure WeaveState where
  report : BridgeReport
  availableRefs : SortedSet String
  definedSlots : SortedSet String

/-- The obligations of a row, in the order in which they are reported. -/
def rowObligations (ceiling : List Symbol) (allSlots : SortedSet String) (menu : FrontierMenu Mode)
    (state : WeaveState) (row : BridgeWeaveRow Mode) (index : Nat) : List BridgeObligation :=
  let rowPath := "loom/rows/" ++ toString index
  checkHead book rowPath menu row ++ checkSlot rowPath row state.definedSlots ++
    checkCapability book rowPath row ceiling ++
    row.roles.flatMap fun role =>
      checkRoleRef book (rowPath ++ "/roles/" ++ role.1.display) role.2 state.availableRefs allSlots

def checkRow (ceiling : List Symbol) (allSlots : SortedSet String) (menu : FrontierMenu Mode)
    (state : WeaveState) (entry : BridgeWeaveRow Mode × Nat) : WeaveState where
  report := (rowObligations book ceiling allSlots menu state entry.1 entry.2).foldl
    BridgeReport.obligate state.report
  availableRefs := state.availableRefs.insert entry.1.slot
  definedSlots := state.definedSlots.insert entry.1.slot

/-! ## Validated mode -/

def initialState (packet : BridgePacket Mode Warrant) : WeaveState where
  report := .new (packet.header.cid.getD "unstamped")
  availableRefs := packetRefs packet
  definedSlots := ∅

def validateWeave (packet : BridgePacket Mode Warrant) (rows : List (BridgeWeaveRow Mode)) :
    Except Error BridgeReport := do
  let allSlots := SortedSet.ofList (rows.map (·.slot))
  -- the menu is asked for again at every row
  let state ← rows.zipIdx.foldlM (fun state entry => do
    let menu ← nextFrontierMenu book packet
    return checkRow book packet.header.ceiling allSlots menu state entry) (initialState packet)
  return state.report

/-! ## Woven mode -/

def isWeavePart (part : BridgePart Mode) : Bool := part.kind = weaveKind

def requireWeavePart (packet : BridgePacket Mode Warrant) : Except Error Nat :=
  match packet.body.findIdx? isWeavePart with
  | some index => .ok index
  | none => .error (.eval "LOOM woven mode requires a bridge/Weave part")

def packetWithWeave (packet : BridgePacket Mode Warrant) (rows : List (BridgeWeaveRow Mode)) :
    Except Error (BridgePacket Mode Warrant) := do
  let index ← requireWeavePart packet
  return { packet with
    header := { packet.header with cid := none }
    body := packet.body.modify index fun part => { part with payload := book.weaveToExpr rows } }

def validateWovenRow (packet : BridgePacket Mode Warrant)
    (acceptedRows : List (BridgeWeaveRow Mode)) (row : BridgeWeaveRow Mode) :
    Except Error BridgeReport := do
  let rows := acceptedRows ++ [row]
  let woven ← packetWithWeave book packet rows
  validateWeave book woven rows

/-- What woven mode uses besides the book. The rows that the target sends may depend on the rows
accepted so far, the place of the row and the obligations against the last one. -/
structure Weaver (Mode Warrant : Type) extends Codec Mode Warrant where
  requestWovenRow : List (BridgeWeaveRow Mode) → Nat → List BridgeObligation →
    Except Error (BridgeWeaveRow Mode)
  rxCheck : BridgePacket Mode Warrant → Option (BridgePacket Mode Warrant) →
    Except Error BridgeReport
  debugText : List BridgeObligation → String

variable (weaver : Weaver Mode Warrant)

def weaveReplacement (packet : BridgePacket Mode Warrant)
    (acceptedRows : List (BridgeWeaveRow Mode)) (rowIndex : Nat) (report : BridgeReport) :
    Except Error (List (BridgeWeaveRow Mode)) := do
  let replacement ← weaver.requestWovenRow acceptedRows rowIndex report.obligations
  let replacementReport ← validateWovenRow book packet acceptedRows replacement
  if replacementReport.accepted then .ok (acceptedRows ++ [replacement])
  else
    .error (.eval ("LOOM woven repair failed at loom/rows/" ++ toString rowIndex ++ ": " ++
      weaver.debugText replacementReport.obligations))

def weaveRow (packet : BridgePacket Mode Warrant) (acceptedRows : List (BridgeWeaveRow Mode))
    (rowIndex : Nat) : Except Error (List (BridgeWeaveRow Mode)) := do
  let row ← weaver.requestWovenRow acceptedRows rowIndex []
  let report ← validateWovenRow book packet acceptedRows row
  if report.accepted then .ok (acceptedRows ++ [row])
  else weaveReplacement book weaver packet acceptedRows rowIndex report

def finishWeave (packet : BridgePacket Mode Warrant) (acceptedRows : List (BridgeWeaveRow Mode)) :
    Except Error (BridgePacket Mode Warrant) := do
  let completed ← packetWithWeave book packet acceptedRows
  let completed ← weaver.stampPacketCid completed
  let report ← weaver.rxCheck completed none
  if report.accepted then .ok completed
  else
    .error (.eval ("LOOM woven packet failed final check: " ++ weaver.debugText report.obligations))

/-- The given rows are a budget: as many rows are asked for. -/
def weaveRowByRow (packet : BridgePacket Mode Warrant) (weave : List (BridgeWeaveRow Mode)) :
    Except Error (BridgePacket Mode Warrant) := do
  if weave.isEmpty then
    .error (.eval "LOOM woven mode requires at least one row budget entry")
  else
    let _ ← requireWeavePart packet
    let acceptedRows ← (List.range weave.length).foldlM (weaveRow book weaver packet) []
    finishWeave book weaver packet acceptedRows

end Check

/-! ## What the checks say -/

section Rows
variable {book : LoomBook Mode} {packet : BridgePacket Mode Warrant} {menu : FrontierMenu Mode}
  {rows : List (BridgeWeaveRow Mode)} {row : BridgeWeaveRow Mode} {state : WeaveState}
  {ceiling : List Symbol} {allSlots : SortedSet String}

/-- A row fits behind the earlier ones: its head is on the menu and within the capabilities, its
slot is new, and what it refers to is there already. -/
structure RowFits (book : LoomBook Mode) (packet : BridgePacket Mode Warrant)
    (menu : FrontierMenu Mode) (earlier : List (BridgeWeaveRow Mode)) (row : BridgeWeaveRow Mode) :
    Prop where
  onMenu : row.head ∈ headChoices book menu
  fresh : ¬∃ r ∈ earlier, r.slot = row.slot
  capable : ∀ required, requiredHeadCapability row.head = some required →
    required ∈ packet.header.ceiling
  bound : ∀ role ∈ row.roles, ∃ reference, roleRef role.2 = some reference ∧
    (reference ∈ packetRefs packet ∨ ∃ r ∈ earlier, r.slot = reference)

/-- The state of the check behind some rows. -/
structure Behind (packet : BridgePacket Mode Warrant) (earlier : List (BridgeWeaveRow Mode))
    (state : WeaveState) : Prop where
  refs : ∀ s, s ∈ state.availableRefs ↔ s ∈ packetRefs packet ∨ ∃ r ∈ earlier, r.slot = s
  slots : ∀ s, s ∈ state.definedSlots ↔ ∃ r ∈ earlier, r.slot = s

theorem checkRoleRef_eq_nil_iff {path : String} {value : Expr Mode}
    {availableRefs allSlots : SortedSet String} :
    checkRoleRef book path value availableRefs allSlots = [] ↔
      ∃ reference, roleRef value = some reference ∧ reference ∈ availableRefs := by
  unfold checkRoleRef
  split
  · next h => simp [h]
  · next reference h => simp [h]

theorem checkCapability_eq_nil_iff {path : String} :
    checkCapability book path row ceiling = [] ↔
      ∀ required, requiredHeadCapability row.head = some required → required ∈ ceiling := by
  unfold checkCapability
  split
  · next h => simp [h]
  · next required h => simp [h]

/-- Which obligations there are does not depend on the slots of later rows. -/
theorem rowObligations_eq_nil_iff {earlier : List (BridgeWeaveRow Mode)}
    (h : Behind packet earlier state) {index : Nat} :
    rowObligations book packet.header.ceiling allSlots menu state row index = [] ↔
      RowFits book packet menu earlier row := by
  simp only [rowObligations, List.append_eq_nil_iff, List.flatMap_eq_nil_iff, checkHead, checkSlot,
    checkCapability_eq_nil_iff, checkRoleRef_eq_nil_iff, h.refs, h.slots]
  constructor
  · rintro ⟨⟨⟨hhead, hslot⟩, hcapable⟩, hbound⟩
    exact ⟨by simpa using hhead, by simpa using hslot, hcapable, hbound⟩
  · rintro ⟨hhead, hslot, hcapable, hbound⟩
    exact ⟨⟨⟨if_pos hhead, if_neg hslot⟩, hcapable⟩, hbound⟩

theorem accepted_foldl_obligate {report : BridgeReport} {obligations : List BridgeObligation} :
    (obligations.foldl BridgeReport.obligate report).accepted = true ↔
      report.accepted = true ∧ obligations = [] := by
  induction obligations generalizing report with
  | nil => simp
  | cons obligation obligations ih => simp [ih]

theorem Behind.initial : Behind packet [] (initialState packet) where
  refs s := by simp [initialState]
  slots s := by simp [initialState]

theorem Behind.next {earlier : List (BridgeWeaveRow Mode)} (h : Behind packet earlier state)
    {index : Nat} :
    Behind packet (earlier ++ [row]) (checkRow book ceiling allSlots menu state (row, index)) where
  refs s := by
    simp only [checkRow, SortedSet.mem_insert, h.refs, List.mem_append, List.mem_singleton,
      or_and_right, exists_or, exists_eq_left, eq_comm (a := s)]
    rw [or_comm, or_assoc]
  slots s := by
    simp only [checkRow, SortedSet.mem_insert, h.slots, List.mem_append, List.mem_singleton,
      or_and_right, exists_or, exists_eq_left, eq_comm (a := s)]
    exact or_comm

/-- Every row fits behind the rows before it. -/
def RowsFit (book : LoomBook Mode) (packet : BridgePacket Mode Warrant) (menu : FrontierMenu Mode)
    (rows : List (BridgeWeaveRow Mode)) : Prop :=
  ∀ i (h : i < rows.length), RowFits book packet menu (rows.take i) rows[i]

theorem rowsFit_concat : RowsFit book packet menu (rows ++ [row]) ↔
    RowsFit book packet menu rows ∧ RowFits book packet menu rows row := by
  constructor
  · intro h
    constructor
    · intro i hi
      have hfits := h i (by simp; omega)
      rwa [List.getElem_append_left hi, List.take_append_of_le_length hi.le] at hfits
    · have hfits := h rows.length (by simp)
      simpa using hfits
  · rintro ⟨hrows, hrow⟩ i hi
    obtain hlt | rfl := Nat.lt_succ_iff_lt_or_eq.mp (by simpa using hi)
    · rw [List.getElem_append_left hlt, List.take_append_of_le_length hlt.le]
      exact hrows i hlt
    · simpa using hrow

theorem foldl_checkRow (rows : List (BridgeWeaveRow Mode)) :
    let state := rows.zipIdx.foldl (checkRow book packet.header.ceiling allSlots menu)
      (initialState packet)
    Behind packet rows state ∧
      (state.report.accepted = true ↔ RowsFit book packet menu rows) := by
  induction rows using List.reverseRecOn with
  | nil => exact ⟨.initial, fun _ _ h => absurd h (Nat.not_lt_zero _), fun _ => rfl⟩
  | append_singleton rows row ih =>
    obtain ⟨hbehind, haccepted⟩ := ih
    rw [List.zipIdx_append, List.foldl_append]
    refine ⟨hbehind.next, ?_⟩
    refine Iff.trans accepted_foldl_obligate ?_
    rw [haccepted, rowObligations_eq_nil_iff hbehind, rowsFit_concat]

def Accepted (result : Except Error BridgeReport) : Prop :=
  ∃ report, result = .ok report ∧ report.accepted = true

/-- A weave is accepted when it has no row, or there is a menu that all rows fit. -/
theorem validateWeave_accepted_iff : Accepted (validateWeave book packet rows) ↔
    rows = [] ∨ ∃ menu, nextFrontierMenu book packet = .ok menu ∧
      RowsFit book packet menu rows := by
  cases hmenu : nextFrontierMenu book packet with
  | ok menu =>
    have hrun : validateWeave book packet rows = .ok (rows.zipIdx.foldl
        (checkRow book packet.header.ceiling (.ofList (rows.map (·.slot))) menu)
        (initialState packet)).report := by
      unfold validateWeave
      rw [hmenu]
      exact congrArg (· >>= _) List.foldlM_pure
    rw [hrun]
    constructor
    · rintro ⟨_, hok, haccepted⟩
      cases hok
      exact .inr ⟨menu, rfl, (foldl_checkRow rows).2.mp haccepted⟩
    · rintro (rfl | ⟨_, hok, hfit⟩)
      · exact ⟨_, rfl, rfl⟩
      · cases hok
        exact ⟨_, rfl, (foldl_checkRow rows).2.mpr hfit⟩
  | error e =>
    cases rows with
    | nil => exact iff_of_true ⟨_, rfl, rfl⟩ (.inl rfl)
    | cons row rows =>
      have hrun : validateWeave book packet (row :: rows) = .error e := by
        unfold validateWeave
        rw [hmenu]
        rfl
      rw [hrun]
      exact iff_of_false nofun nofun

end Rows

/-! ## What a packet with other rows looks like -/

section Woven
variable {book : LoomBook Mode} {packet packet' woven : BridgePacket Mode Warrant}
  {rows : List (BridgeWeaveRow Mode)} {row : BridgeWeaveRow Mode}

theorem filter_modify {p q : α → Bool} {f : α → α} {l : List α} {i : Nat}
    (hf : ∀ a, q a = true → p a = false ∧ p (f a) = false) (hi : l.findIdx? q = some i) :
    (l.modify i f).filter p = l.filter p := by
  induction l generalizing i with
  | nil => cases hi
  | cons a l ih =>
    rw [List.findIdx?_cons] at hi
    cases hq : q a with
    | true =>
      rw [hq] at hi
      cases hi
      obtain ⟨hp, hpf⟩ := hf a hq
      rw [List.modify_zero_cons, List.filter_cons_of_neg (by simp [hpf]),
        List.filter_cons_of_neg (by simp [hp])]
    | false =>
      rw [hq] at hi
      obtain ⟨j, hj, rfl⟩ := Option.map_eq_some_iff.mp hi
      rw [List.modify_succ_cons, List.filter_cons, List.filter_cons, ih hj]

/-- The packets agree in what the checks of rows look at. -/
structure SameScene (packet packet' : BridgePacket Mode Warrant) : Prop where
  moveKind : packet'.header.moveKind = packet.header.moveKind
  ceiling : packet'.header.ceiling = packet.header.ceiling
  context : packet'.header.context = packet.header.context
  frames : packet'.body.filter (·.kind = frameKind) = packet.body.filter (·.kind = frameKind)
  parts : packet'.body.filter (·.kind ≠ weaveKind) = packet.body.filter (·.kind ≠ weaveKind)

/-- The frontier depends only on the kind of the move and the frame parts. -/
theorem frontier_congr (hmove : packet'.header.moveKind = packet.header.moveKind)
    (hframes : packet'.body.filter (·.kind = frameKind) =
      packet.body.filter (·.kind = frameKind)) : frontier book packet' = frontier book packet := by
  rw [frontier, frontier, frameSlots, frameSlots, hmove, hframes]

theorem SameScene.packetRefs_eq (h : SameScene packet packet') :
    packetRefs packet' = packetRefs packet := by
  rw [packetRefs, packetRefs, h.parts, h.context]

theorem SameScene.rowsFit_iff (h : SameScene packet packet') {menu : FrontierMenu Mode} :
    RowsFit book packet' menu rows ↔ RowsFit book packet menu rows := by
  refine forall₂_congr fun i hi => ?_
  constructor
  · rintro ⟨hhead, hslot, hcapable, hbound⟩
    rw [h.ceiling] at hcapable
    rw [h.packetRefs_eq] at hbound
    exact ⟨hhead, hslot, hcapable, hbound⟩
  · rintro ⟨hhead, hslot, hcapable, hbound⟩
    rw [← h.ceiling] at hcapable
    rw [← h.packetRefs_eq] at hbound
    exact ⟨hhead, hslot, hcapable, hbound⟩

theorem SameScene.accepted_iff (h : SameScene packet packet') :
    Accepted (validateWeave book packet' rows) ↔ Accepted (validateWeave book packet rows) := by
  simp only [validateWeave_accepted_iff, nextFrontierMenu, frontier_congr h.moveKind h.frames,
    h.rowsFit_iff]

theorem packetWithWeave_scene (h : packetWithWeave book packet rows = .ok woven) :
    SameScene packet woven := by
  obtain ⟨index, hindex, hok⟩ := Except.bind_eq_ok_iff.mp h
  cases hok
  have hfind : packet.body.findIdx? isWeavePart = some index := by
    unfold requireWeavePart at hindex
    split at hindex
    · next hfind =>
      cases hindex
      exact hfind
    · cases hindex
  have hkind {part : BridgePart Mode} (hpart : isWeavePart part = true) : part.kind = weaveKind :=
    of_decide_eq_true hpart
  refine ⟨rfl, rfl, rfl, filter_modify ?_ hfind, filter_modify ?_ hfind⟩
  · intro part hpart
    simp only [hkind hpart]
    decide
  · intro part hpart
    simp [hkind hpart]

/-- A packet with a weave part can take any rows. -/
theorem exists_packetWithWeave (h : ∃ part ∈ packet.body, part.kind = weaveKind)
    (book : LoomBook Mode) (rows : List (BridgeWeaveRow Mode)) :
    ∃ woven, packetWithWeave book packet rows = .ok woven := by
  obtain ⟨part, hpart, hkind⟩ := h
  have hsome : (packet.body.findIdx? isWeavePart).isSome := by
    rw [List.findIdx?_isSome, List.any_eq_true]
    exact ⟨part, hpart, decide_eq_true hkind⟩
  obtain ⟨index, hindex⟩ := Option.isSome_iff_exists.mp hsome
  unfold packetWithWeave requireWeavePart
  rw [hindex]
  exact ⟨_, rfl⟩

end Woven

/-! ## Both modes -/

section Modes
variable {book : LoomBook Mode} {packet woven : BridgePacket Mode Warrant}
  {rows : List (BridgeWeaveRow Mode)} {row : BridgeWeaveRow Mode}

/-- The packet that carries the rows is accepted in validated mode. -/
def ValidatedMode (book : LoomBook Mode) (packet : BridgePacket Mode Warrant)
    (rows : List (BridgeWeaveRow Mode)) : Prop :=
  ∃ woven, packetWithWeave book packet rows = .ok woven ∧ Accepted (validateWeave book woven rows)

/-- Each row is accepted in woven mode after the rows before it. -/
def WovenMode (book : LoomBook Mode) (packet : BridgePacket Mode Warrant)
    (rows : List (BridgeWeaveRow Mode)) : Prop :=
  ∀ i (h : i < rows.length), Accepted (validateWovenRow book packet (rows.take i) rows[i])

theorem validatedMode_iff (h : ∃ part ∈ packet.body, part.kind = weaveKind) :
    ValidatedMode book packet rows ↔ Accepted (validateWeave book packet rows) := by
  obtain ⟨woven, hwoven⟩ := exists_packetWithWeave h book rows
  have haccepted : Accepted (validateWeave book woven rows) ↔
      Accepted (validateWeave book packet rows) := (packetWithWeave_scene hwoven).accepted_iff
  rw [← haccepted]
  constructor
  · rintro ⟨woven', hwoven', hok⟩
    cases hwoven.symm.trans hwoven'
    exact hok
  · intro hok
    exact ⟨woven, hwoven, hok⟩

/-- A row is checked in woven mode as the last one of a weave of its own. -/
theorem validateWovenRow_accepted_iff (h : ∃ part ∈ packet.body, part.kind = weaveKind) :
    Accepted (validateWovenRow book packet rows row) ↔
      Accepted (validateWeave book packet (rows ++ [row])) := by
  rw [← validatedMode_iff h]
  simp only [ValidatedMode, Accepted, validateWovenRow, Except.bind_eq_ok_iff]
  constructor
  · rintro ⟨report, ⟨woven, hwoven, hok⟩, haccepted⟩
    exact ⟨woven, hwoven, report, hok, haccepted⟩
  · rintro ⟨woven, hwoven, report, hok, haccepted⟩
    exact ⟨report, ⟨woven, hwoven, hok⟩, haccepted⟩

theorem accepted_of_concat (h : Accepted (validateWeave book packet (rows ++ [row]))) :
    Accepted (validateWeave book packet rows) := by
  obtain hnil | ⟨menu, hmenu, hfit⟩ := validateWeave_accepted_iff.mp h
  · exact absurd hnil (by simp)
  · exact validateWeave_accepted_iff.mpr (.inr ⟨menu, hmenu, (rowsFit_concat.mp hfit).1⟩)

theorem wovenMode_iff (h : ∃ part ∈ packet.body, part.kind = weaveKind) :
    WovenMode book packet rows ↔ Accepted (validateWeave book packet rows) := by
  have htaken : WovenMode book packet rows ↔
      ∀ i < rows.length, Accepted (validateWeave book packet (rows.take (i + 1))) := by
    refine forall₂_congr fun i hi => ?_
    rw [validateWovenRow_accepted_iff h, List.take_concat_get' rows i hi]
  rw [htaken]
  exact Run.forall_prefix_iff (P := fun rows => Accepted (validateWeave book packet rows))
    ⟨_, rfl, rfl⟩ fun _ _ => accepted_of_concat

/-- In an accepted weave no two rows have one slot. -/
theorem nodup_slots (h : Accepted (validateWeave book packet rows)) :
    (rows.map (·.slot)).Nodup := by
  obtain rfl | ⟨menu, -, hfit⟩ := validateWeave_accepted_iff.mp h
  · exact List.nodup_nil
  · rw [List.nodup_iff_pairwise_ne, List.pairwise_map, List.pairwise_iff_getElem]
    intro i j hi hj hij hslot
    exact (hfit j hj).fresh ⟨rows[i], List.mem_take_iff_getElem.mpr ⟨i, by omega, rfl⟩, hslot⟩

/-- What a role of a row may refer to. -/
def Resolves (packet : BridgePacket Mode Warrant) (rows : List (BridgeWeaveRow Mode)) (i : Nat)
    (reference : String) : Prop :=
  (∃ part ∈ packet.body, part.kind ≠ weaveKind ∧ part.id.display = reference) ∨
    (∃ id ∈ packet.header.context, id.display = reference) ∨
    ∃ j, ∃ h : j < rows.length, j < i ∧ rows[j].slot = reference

theorem resolves_of_accepted (h : Accepted (validateWeave book packet rows)) {i : Nat}
    (hi : i < rows.length) : ∀ role ∈ rows[i].roles,
      ∃ reference, roleRef role.2 = some reference ∧ Resolves packet rows i reference := by
  obtain rfl | ⟨menu, -, hfit⟩ := validateWeave_accepted_iff.mp h
  · cases hi
  · intro role hrole
    obtain ⟨reference, href, hbound⟩ := (hfit i hi).bound role hrole
    refine ⟨reference, href, ?_⟩
    obtain hpacket | ⟨r, hr, hslot⟩ := hbound
    · simp only [packetRefs, SortedSet.mem_ofList, List.mem_append, List.mem_map, List.mem_filter,
        decide_eq_true_eq] at hpacket
      obtain ⟨part, ⟨hpart, hkind⟩, hid⟩ | ⟨id, hid, htext⟩ := hpacket
      · exact .inl ⟨part, hpart, hkind, hid⟩
      · exact .inr (.inl ⟨id, hid, htext⟩)
    · obtain ⟨j, hj, rfl⟩ := List.mem_take_iff_getElem.mp hr
      exact .inr (.inr ⟨j, by omega, by omega, hslot⟩)

/-- Woven mode and validated mode accept the same rows; an accepted weave has no slot twice, and
its roles refer to the packet or to earlier rows. -/
theorem woven_iff_validated (h : ∃ part ∈ packet.body, part.kind = weaveKind) :
    (ValidatedMode book packet rows ↔ WovenMode book packet rows) ∧
      ∀ scene : BridgePacket Mode Warrant, Accepted (validateWeave book scene rows) →
        (rows.map (·.slot)).Nodup ∧
          ∀ i (hi : i < rows.length), ∀ role ∈ rows[i].roles,
            ∃ reference, roleRef role.2 = some reference ∧ Resolves scene rows i reference := by
  refine ⟨(validatedMode_iff h).trans (wovenMode_iff h).symm, ?_⟩
  intro scene haccepted
  exact ⟨nodup_slots haccepted, fun i hi => resolves_of_accepted haccepted hi⟩

/-! ## A woven run -/

variable {weaver : Weaver Mode Warrant} {rowIndex : Nat} {completed : BridgePacket Mode Warrant}

/-- A row is added when it, or what has replaced it, is accepted. -/
theorem weaveRow_eq_ok (h : weaveRow book weaver packet rows rowIndex = .ok rows') :
    ∃ row, rows' = rows ++ [row] ∧ Accepted (validateWovenRow book packet rows row) := by
  obtain ⟨row, -, h⟩ := Except.bind_eq_ok_iff.mp h
  obtain ⟨report, hreport, h⟩ := Except.bind_eq_ok_iff.mp h
  split at h
  · next haccepted =>
    cases h
    exact ⟨row, rfl, report, hreport, haccepted⟩
  · obtain ⟨replacement, -, h⟩ := Except.bind_eq_ok_iff.mp h
    obtain ⟨replacementReport, hreport, h⟩ := Except.bind_eq_ok_iff.mp h
    split at h
    · next haccepted =>
      cases h
      exact ⟨replacement, rfl, replacementReport, hreport, haccepted⟩
    · cases h

/-- The rows of a woven run are as many as its budget, and validated mode accepts them. -/
theorem weaveRowByRow_eq_ok {weave : List (BridgeWeaveRow Mode)}
    (h : weaveRowByRow book weaver packet weave = .ok completed) :
    ∃ rows woven, rows.length = weave.length ∧ packetWithWeave book packet rows = .ok woven ∧
      Accepted (validateWeave book woven rows) ∧ weaver.stampPacketCid woven = .ok completed := by
  unfold weaveRowByRow at h
  obtain ⟨-, h⟩ := Except.guard_eq_ok_iff.mp h
  obtain ⟨index, hindex, h⟩ := Except.bind_eq_ok_iff.mp h
  obtain ⟨rows, hrun, h⟩ := Except.bind_eq_ok_iff.mp h
  have hweave : ∃ part ∈ packet.body, part.kind = weaveKind := by
    unfold requireWeavePart at hindex
    split at hindex
    · next index hfind =>
      obtain ⟨hlt, hpart, -⟩ := List.findIdx?_eq_some_iff_getElem.mp hfind
      exact ⟨_, List.getElem_mem hlt, of_decide_eq_true hpart⟩
    · cases hindex
  have hrows : rows.length = (List.range weave.length).length ∧
      Accepted (validateWeave book packet rows) := by
    refine Run.induct (P := fun es rows => rows.length = es.length ∧
      Accepted (validateWeave book packet rows)) ⟨rfl, _, rfl, rfl⟩ ?_ hrun
    rintro es rows i rows' ⟨hlength, -⟩ hstep
    obtain ⟨row, rfl, haccepted⟩ := weaveRow_eq_ok hstep
    exact ⟨by simp [hlength], (validateWovenRow_accepted_iff hweave).mp haccepted⟩
  obtain ⟨woven, hwoven, h⟩ := Except.bind_eq_ok_iff.mp h
  obtain ⟨stamped, hstamped, h⟩ := Except.bind_eq_ok_iff.mp h
  obtain ⟨report, -, h⟩ := Except.bind_eq_ok_iff.mp h
  split at h
  · cases h
    exact ⟨rows, woven, by simpa using hrows.1, hwoven,
      (packetWithWeave_scene hwoven).accepted_iff.mpr hrows.2, hstamped⟩
  · cases h

end Modes

/-! ## Example -/

namespace WeaveSample

def book : LoomBook Unit where
  legalReplyIntents _ := [.new "reply"]
  frame _ := .ok (.new "proposal")
  requireSpec _ := .ok []
  oneOfGrammar _ := .ok ""
  weaveToExpr _ := .nil
  field
    | .map [_, (_, value)], _ => some value
    | _, _ => none
  debugExpr _ := ""
  debugSymbols _ := ""

def packet : BridgePacket Unit Unit where
  header := ⟨none, .new "request", "sim", ["drafter"], .new "implementer", [], .new "W1", .new "O1",
    [.qualified "ai" "run"], [.new "T1"]⟩
  body := [⟨.new "W1", weaveKind, .nil⟩]
  warrant := none

/-- The second row refers to the first one. -/
def rows : List (BridgeWeaveRow Unit) :=
  [⟨"first", .new "reply", [(.new "input", .symbol (.new "T1"))]⟩,
    ⟨"second", .new "reply", [(.new "input", .string "@first")]⟩]

/-- The rows make a weave, so they can be woven one after the other. -/
theorem rows_woven : WovenMode book packet rows := by
  have hweave : ∃ part ∈ packet.body, part.kind = weaveKind :=
    ⟨⟨.new "W1", weaveKind, .nil⟩, List.mem_singleton_self _, rfl⟩
  have hvalid : (validateWeave book packet rows).map BridgeReport.accepted = .ok true := by
    decide +kernel
  obtain ⟨report, hreport, haccepted⟩ := Except.map_eq_ok_iff.mp hvalid
  have hvalidated := (validatedMode_iff hweave).mpr ⟨report, hreport, haccepted⟩
  exact (woven_iff_validated hweave).1.mp hvalidated

example : (validateWeave book packet rows.reverse).map BridgeReport.accepted = .ok false := by
  decide +kernel

end WeaveSample

end SimAgentNet.Bridge
