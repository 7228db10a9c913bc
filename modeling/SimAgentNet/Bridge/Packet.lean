import SimAgentNet.Data.Run
import SimAgentNet.Kernel.Expr

/-! # Bridge packets

The packets of the BRIDGE codec, how a packet cites another one, and the reports of receive checks.
The codec is a separate package: what it does to packets and payloads is a parameter. -/

namespace SimAgentNet.Bridge
variable {Mode Warrant : Type}

/-- Kernel errors; `kernel` stands for those that the modelled code does not make itself. -/
inductive Error where
  | eval (message : String)
  | kernel (message : String)
deriving DecidableEq

structure BridgeHeader where
  cid : Option String
  moveKind : Symbol
  «from» : String
  «to» : List String
  role : Symbol
  parents : List String
  task : Symbol
  output : Symbol
  ceiling : List Symbol
  context : List Symbol
deriving DecidableEq

structure BridgePart (Mode : Type) where
  id : Symbol
  kind : Symbol
  payload : Expr Mode

/-- A packet without the provenance in its header, which no check of the model reads. -/
structure BridgePacket (Mode Warrant : Type) where
  header : BridgeHeader
  body : List (BridgePart Mode)
  warrant : Option Warrant

/-- What the codec does to whole packets: `stampPacketCid` gives a packet its content id. -/
structure Codec (Mode Warrant : Type) where
  canonicalized : BridgePacket Mode Warrant → BridgePacket Mode Warrant
  stampPacketCid : BridgePacket Mode Warrant → Except Error (BridgePacket Mode Warrant)

/-! ## Parents -/

def moveMark : List Char := "#move=".toList

/-- The text before the first occurrence of a separator, or the whole text. -/
def beforeText (sep : List Char) : List Char → List Char
  | [] => []
  | c :: cs => if sep <+: c :: cs then [] else c :: beforeText sep cs

def parentToken (parent : BridgePacket Mode Warrant) : Option String :=
  parent.header.cid.map fun cid => cid ++ "#move=" ++ parent.header.moveKind.display

def parentCid (token : String) : String := .ofList (beforeText moveMark token.toList)

def parentsContainCid (parents : List String) (cid : String) : Bool :=
  parents.any fun parent => parentCid parent = cid

/-- The packet names the content id among its parents. -/
def BridgePacket.Cites (packet : BridgePacket Mode Warrant) (cid : String) : Prop :=
  parentsContainCid packet.header.parents cid = true

instance (packet : BridgePacket Mode Warrant) (cid : String) : Decidable (packet.Cites cid) :=
  inferInstanceAs (Decidable (_ = true))

/-- What stands before a separator is found again when the separator is not in it, and begins
with a character that does not come again in the separator. -/
theorem beforeText_append {c : Char} {sep text rest : List Char} (hsep : c ∉ sep)
    (h : ¬c :: sep <:+: text) : beforeText (c :: sep) (text ++ (c :: sep) ++ rest) = text := by
  induction text with
  | nil => exact if_pos ⟨rest, rfl⟩
  | cons d text ih =>
    have hnot : ¬c :: sep <+: d :: (text ++ (c :: sep) ++ rest) := by
      intro hpre
      rw [List.append_assoc, ← List.cons_append] at hpre
      obtain hlt | hle := lt_or_ge (d :: text).length (c :: sep).length
      · -- the separator would reach over the place where it begins again
        have hget := hpre.getElem hlt
        rw [List.getElem_append_right (le_refl _)] at hget
        simp only [List.length_cons, Nat.sub_self, List.cons_append, List.getElem_cons_zero,
          List.getElem_cons_succ] at hget
        exact hsep (hget ▸ List.getElem_mem _)
      · have hin : c :: sep <+: d :: text :=
          List.prefix_of_prefix_length_le hpre (List.prefix_append _ _) hle
        exact h hin.isInfix
    have hrest : ¬c :: sep <:+: text := fun hin => h (hin.trans (List.suffix_cons d text).isInfix)
    calc beforeText (c :: sep) (d :: text ++ (c :: sep) ++ rest)
      _ = d :: beforeText (c :: sep) (text ++ (c :: sep) ++ rest) := if_neg hnot
      _ = d :: text := by rw [ih hrest]

/-- A packet that has the token of a stamped packet as a parent cites it. -/
theorem parentsContainCid_token {parent : BridgePacket Mode Warrant} {cid : String}
    (hcid : parent.header.cid = some cid) (hmark : ¬moveMark <:+: cid.toList) :
    parentsContainCid (parentToken parent).toList cid = true := by
  have hbefore : beforeText moveMark (cid.toList ++ moveMark ++
      parent.header.moveKind.display.toList) = cid.toList :=
    beforeText_append (by decide) hmark
  have htoken : parentCid (cid ++ "#move=" ++ parent.header.moveKind.display) = cid := by
    rw [parentCid, String.toList_append, String.toList_append]
    exact (congrArg String.ofList hbefore).trans (String.ofList_toList)
  rw [parentToken, hcid]
  simp [parentsContainCid, htoken]

/-! ## Reports -/

structure BridgeObligation where
  path : String
  reason : String
  expected : String
  actual : String
  repairMenu : List String
deriving DecidableEq

def BridgeObligation.repairPacket (path reason expected actual : String) : BridgeObligation where
  path := path
  reason := reason
  expected := expected
  actual := actual
  repairMenu := ["repair packet", "fetch missing context", "return receipt"]

structure BridgeReport where
  packetCid : String
  acceptedParts : List String
  rejectedParts : List String
  obligations : List BridgeObligation
deriving DecidableEq

namespace BridgeReport

def new (packetCid : String) : BridgeReport := ⟨packetCid, [], [], []⟩

def accept (report : BridgeReport) (id : Symbol) : BridgeReport :=
  if id.display ∈ report.acceptedParts then report
  else { report with acceptedParts := report.acceptedParts ++ [id.display] }

def reject (report : BridgeReport) (id : Symbol) : BridgeReport :=
  if id.display ∈ report.rejectedParts then report
  else { report with rejectedParts := report.rejectedParts ++ [id.display] }

def obligate (report : BridgeReport) (obligation : BridgeObligation) : BridgeReport :=
  { report with obligations := report.obligations ++ [obligation] }

def accepted (report : BridgeReport) : Bool := report.obligations.isEmpty

@[simp] theorem accepted_new (packetCid : String) : (new packetCid).accepted = true := rfl

@[simp] theorem accepted_accept (report : BridgeReport) (id : Symbol) :
    (report.accept id).accepted = report.accepted := by
  unfold accept
  split <;> rfl

@[simp] theorem accepted_reject (report : BridgeReport) (id : Symbol) :
    (report.reject id).accepted = report.accepted := by
  unfold reject
  split <;> rfl

@[simp] theorem accepted_obligate (report : BridgeReport) (obligation : BridgeObligation) :
    (report.obligate obligation).accepted = false := by
  simp [obligate, accepted]

end BridgeReport

end SimAgentNet.Bridge
