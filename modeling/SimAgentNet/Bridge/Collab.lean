import SimAgentNet.Bridge.Packet

/-! # Merging replies

How the patches of several seats are merged into one reply. The votes behind a patch are counted
part by part: a seat that votes twice counts twice. -/

namespace SimAgentNet.Bridge
variable {Mode Warrant : Type}

structure BridgePatchPayload (Mode : Type) where
  parentCid : String
  target : String
  replacement : Expr Mode

/-- A vote without its scores, which a merge does not read. -/
structure BridgeVotePayload where
  target : String
deriving DecidableEq

/-- How the payloads of patches and votes are read. -/
structure Payloads (Mode : Type) where
  patch : Expr Mode → Except Error (BridgePatchPayload Mode)
  vote : Expr Mode → Except Error BridgeVotePayload

inductive MergePolicy where
  | single
  | quorum (minVotes : Nat)
  | synthesisThenVote (synthesizer : String) (minVotes : Nat)
deriving DecidableEq

def MergePolicy.minVotes : MergePolicy → Option Nat
  | .single => none
  | .quorum minVotes | .synthesisThenVote _ minVotes => some minVotes

structure PatchCandidate (Mode Warrant : Type) where
  packet : BridgePacket Mode Warrant
  patch : BridgePatchPayload Mode

def patchKind : Symbol := .qualified "bridge" "Patch"
def voteKind : Symbol := .qualified "bridge" "Vote"

/-- The parts of a kind in the replies to the base, in the order in which a merge meets them. -/
def replyParts (baseCid : String) (kind : Symbol) (replies : List (BridgePacket Mode Warrant)) :
    List (BridgePacket Mode Warrant × BridgePart Mode) :=
  (replies.filter (·.Cites baseCid)).flatMap fun packet =>
    (packet.body.filter (·.kind = kind)).map (Prod.mk packet)

/-- The element of a list that holds no other. -/
def only (empty many : Error) : List α → Except Error α
  | [] => .error empty
  | [a] => .ok a
  | _ => .error many

section Merge
variable (payloads : Payloads Mode)

def readCandidate (entry : BridgePacket Mode Warrant × BridgePart Mode) :
    Except Error (PatchCandidate Mode Warrant) :=
  PatchCandidate.mk entry.1 <$> payloads.patch entry.2.payload

def patchCandidates (baseCid : String) (replies : List (BridgePacket Mode Warrant)) :
    Except Error (List (PatchCandidate Mode Warrant)) := do
  let candidates ← (replyParts baseCid patchKind replies).mapM (readCandidate payloads)
  return candidates.filter (·.patch.parentCid = baseCid)

def requirePatches (patches : List (PatchCandidate Mode Warrant)) : Except Error Unit :=
  if patches.isEmpty then
    .error (.eval "BRIDGE collaboration merge found no patch for the base packet")
  else .ok ()

/-- The code takes the first patch by its index; there is one wherever it does. -/
def requireOneTarget : List (PatchCandidate Mode Warrant) → Except Error Unit
  | [] => .ok ()
  | first :: patches =>
    if (first :: patches).all (·.patch.target = first.patch.target) then .ok ()
    else .error (.eval "BRIDGE collaboration merge patches must share one exact target path")

def votesForTarget (baseCid : String) (replies : List (BridgePacket Mode Warrant))
    (target : String) : Except Error Nat := do
  let votes ← (replyParts baseCid voteKind replies).mapM fun entry =>
    payloads.vote entry.2.payload
  return votes.countP (·.target = target)

/-- A vote that cannot be read leaves no patch with enough votes. -/
def enoughVotes (baseCid : String) (replies : List (BridgePacket Mode Warrant)) (minVotes : Nat)
    (candidate : PatchCandidate Mode Warrant) : Bool :=
  match votesForTarget payloads baseCid replies candidate.patch.target with
  | .ok votes => minVotes ≤ votes
  | .error _ => false

def selectQuorumPatch (baseCid : String) (replies : List (BridgePacket Mode Warrant))
    (patches : List (PatchCandidate Mode Warrant)) (minVotes : Nat) :
    Except Error (PatchCandidate Mode Warrant) :=
  if minVotes = 0 then .error (.eval "BRIDGE quorum merge requires at least one vote")
  else only (.eval "BRIDGE quorum merge found no patch with enough votes")
    (.eval "BRIDGE quorum merge selected more than one patch")
    (patches.filter (enoughVotes payloads baseCid replies minVotes))

def selectPatch (baseCid : String) (replies : List (BridgePacket Mode Warrant))
    (patches : List (PatchCandidate Mode Warrant)) :
    MergePolicy → Except Error (PatchCandidate Mode Warrant)
  | .single =>
    let severalOrNone := .eval "BRIDGE single merge requires exactly one patch"
    only severalOrNone severalOrNone patches
  | .quorum minVotes => selectQuorumPatch payloads baseCid replies patches minVotes
  | .synthesisThenVote synthesizer minVotes =>
    if synthesizer.isEmpty then
      .error (.eval "BRIDGE synthesis merge requires a synthesizer seat")
    else
      selectQuorumPatch payloads baseCid replies
        (patches.filter (·.packet.header.from = synthesizer)) minVotes

/-- What a merge uses besides the payloads: the codec, the receive check of a reply to a parent, and
the debugging text of its obligations. -/
structure Receive (Mode Warrant : Type) extends Codec Mode Warrant where
  rxCheck : BridgePacket Mode Warrant → Option (BridgePacket Mode Warrant) →
    Except Error BridgeReport
  debugText : List BridgeObligation → String

variable (receive : Receive Mode Warrant)

def checkMergedReply (base merged : BridgePacket Mode Warrant) : Except Error Unit := do
  let report ← receive.rxCheck merged (some base)
  if report.accepted then .ok ()
  else
    .error (.eval ("BRIDGE merged reply failed receive check: " ++
      receive.debugText report.obligations))

/-- A merge onto a base of the content id `baseCid`. -/
def mergeOnto (base : BridgePacket Mode Warrant) (baseCid : String)
    (replies : List (BridgePacket Mode Warrant)) (policy : MergePolicy) :
    Except Error (BridgePacket Mode Warrant) := do
  let patches ← patchCandidates payloads baseCid replies
  requirePatches patches
  requireOneTarget patches
  let selected ← selectPatch payloads baseCid replies patches policy
  let merged ← receive.stampPacketCid (receive.canonicalized selected.packet)
  checkMergedReply receive base merged
  return merged

def mergeBridgeReplies (base : BridgePacket Mode Warrant)
    (replies : List (BridgePacket Mode Warrant)) (policy : MergePolicy) :
    Except Error (BridgePacket Mode Warrant) :=
  match base.header.cid with
  | none => .error (.eval "BRIDGE collaboration merge requires a stamped base packet")
  | some baseCid => mergeOnto payloads receive base baseCid replies policy

end Merge

/-! ## What a merge reads -/

section Reading
variable {payloads : Payloads Mode} {baseCid target : String} {kind : Symbol}
  {replies replies' : List (BridgePacket Mode Warrant)} {reply : BridgePacket Mode Warrant}

theorem mem_replyParts {entry : BridgePacket Mode Warrant × BridgePart Mode} :
    entry ∈ replyParts baseCid kind replies ↔
      entry.1 ∈ replies ∧ entry.1.Cites baseCid ∧ entry.2 ∈ entry.1.body ∧ entry.2.kind = kind := by
  obtain ⟨packet, part⟩ := entry
  simp only [replyParts, List.mem_flatMap, List.mem_filter, decide_eq_true_eq, List.mem_map,
    Prod.mk.injEq]
  constructor
  · rintro ⟨_, ⟨hmem, hcites⟩, _, hpart, rfl, rfl⟩
    exact ⟨hmem, hcites, hpart⟩
  · rintro ⟨hmem, hcites, hpart⟩
    exact ⟨packet, ⟨hmem, hcites⟩, part, hpart, rfl, rfl⟩

end Reading

/-! ## Votes and voters -/

section Votes
variable (payloads : Payloads Mode)

/-- The part is a vote for the target. -/
def votesFor (target : String) (part : BridgePart Mode) : Bool :=
  match payloads.vote part.payload with
  | .ok vote => vote.target = target
  | .error _ => false

/-- The seats of the votes for a target in the replies to the base, one for each vote part. -/
def ballots (baseCid target : String) (replies : List (BridgePacket Mode Warrant)) :
    List String :=
  ((replyParts baseCid voteKind replies).filter fun entry => votesFor payloads target entry.2).map
    (·.1.header.from)

/-- The seats that have sent a reply to the base with a vote for the target. -/
def voters (baseCid target : String) (replies : List (BridgePacket Mode Warrant)) :
    Finset String :=
  (ballots payloads baseCid target replies).toFinset

variable {payloads} {baseCid target : String}
  {replies replies' : List (BridgePacket Mode Warrant)} {reply : BridgePacket Mode Warrant}

theorem votesFor_iff {part : BridgePart Mode} : votesFor payloads target part = true ↔
    ∃ vote, payloads.vote part.payload = .ok vote ∧ vote.target = target := by
  unfold votesFor
  split
  · next vote hvote => simp [hvote]
  · next e he => simp [he]

theorem mem_voters {seat : String} :
    seat ∈ voters payloads baseCid target replies ↔ ∃ packet ∈ replies, packet.Cites baseCid ∧
      packet.header.from = seat ∧ ∃ part ∈ packet.body, part.kind = voteKind ∧
        ∃ vote, payloads.vote part.payload = .ok vote ∧ vote.target = target := by
  simp only [voters, ballots, List.mem_toFinset, List.mem_map, List.mem_filter, mem_replyParts,
    votesFor_iff, Prod.exists]
  constructor
  · rintro ⟨packet, part, ⟨⟨hmem, hcites, hpart, hkind⟩, hfor⟩, hseat⟩
    exact ⟨packet, hmem, hcites, hseat, part, hpart, hkind, hfor⟩
  · rintro ⟨packet, hmem, hcites, hseat, part, hpart, hkind, hfor⟩
    exact ⟨packet, part, ⟨⟨hmem, hcites, hpart, hkind⟩, hfor⟩, hseat⟩

end Votes

/-! ## The selected patch -/

section Selection
variable {payloads : Payloads Mode} {baseCid : String} {policy : MergePolicy}
  {replies replies' : List (BridgePacket Mode Warrant)}
  {patches patches' : List (PatchCandidate Mode Warrant)} {selected : PatchCandidate Mode Warrant}

end Selection

/-! ## The merge -/

section Merged
variable {payloads : Payloads Mode} {receive : Receive Mode Warrant} {baseCid : String}
  {base merged : BridgePacket Mode Warrant} {policy : MergePolicy}
  {replies replies' : List (BridgePacket Mode Warrant)}

end Merged

/-! ## Example -/

namespace MergeSample

def payloads : Payloads Unit where
  patch
    | .map [(_, .string parentCid), (_, .string target), (_, replacement)] =>
      .ok ⟨parentCid, target, replacement⟩
    | _ => .error (.kernel "not a patch")
  vote
    | .map ((_, .string target) :: _) => .ok ⟨target⟩
    | _ => .error (.kernel "not a vote")

/-- The content id of a packet is its sender here. -/
def receive : Receive Unit Unit where
  canonicalized packet := packet
  stampPacketCid packet :=
    .ok { packet with header := { packet.header with cid := some packet.header.from } }
  rxCheck _ _ := .ok (.new "")
  debugText _ := ""

def reply (seat : String) (moveKind : String) (part : BridgePart Unit) :
    BridgePacket Unit Unit where
  header := ⟨none, .new moveKind, seat, ["sim"], .new "judge", ["root#move=request"], part.id,
    part.id, [], []⟩
  body := [part]
  warrant := none

def base : BridgePacket Unit Unit where
  header := ⟨some "root", .new "request", "sim", ["drafter", "judge", "second"],
    .new "implementer", [], .new "O1", .new "O1", [], []⟩
  body := []
  warrant := none

def vote (seat : String) : BridgePacket Unit Unit :=
  reply seat "vote" ⟨.new "V1", voteKind, .map [Expr.entry "target" (.string "O1")]⟩

def merge (replies : List (BridgePacket Unit Unit)) : Except Error (BridgePacket Unit Unit) :=
  mergeBridgeReplies payloads receive base replies (.quorum 2)

end MergeSample

end SimAgentNet.Bridge
