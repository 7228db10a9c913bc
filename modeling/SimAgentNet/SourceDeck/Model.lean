import SimAgentNet.Data.SortedMap
import SimAgentNet.Data.Run
import SimAgentNet.Kernel.Datum

/-! # Source decks

The values of `sim-source-deck`: repository snapshots, index fragments, excerpts and specimens, the
queries about them and the deck that grounds the queries. -/

namespace SimAgentNet.SourceDecks

/-- The content id of a datum in the kernel, or the text of its refusal. -/
abbrev ContentIdOf := Datum → Except String ContentId

structure SourceDeckId where
  content : ContentId
deriving DecidableEq

/-- Identity of supplied bytes. -/
structure ByteContentId where
  content : ContentId
deriving DecidableEq

structure RepositorySnapshot where
  owner : String
  repository : String
  revision : String
deriving DecidableEq

structure SourceFile where
  owner : String
  path : String
  bytes : List UInt8
  contentId : ByteContentId
deriving DecidableEq

/-- A range of the bytes of a file; the end is exclusive. -/
structure Excerpt where
  id : String
  owner : String
  path : String
  start : Nat
  «end» : Nat
  bytes : List UInt8
deriving DecidableEq

structure SpecimenPin where
  id : String
  owner : String
  bytes : List UInt8
  contentId : ByteContentId
deriving DecidableEq

structure IndexAnchor where
  id : String
  owner : String
  sourcePath : Option String
deriving DecidableEq

structure IndexSpecimen where
  id : String
  owner : String
deriving DecidableEq

structure IndexFragment where
  owner : String
  anchors : List IndexAnchor
  specimens : List IndexSpecimen
deriving DecidableEq

structure FragmentPin where
  owner : String
  bytes : List UInt8
  contentId : ByteContentId
deriving DecidableEq

structure ClaimCertificate where
  anchor : String
  owner : String
  fragmentId : ByteContentId
  digest : ByteContentId
deriving DecidableEq

inductive Limitation where
  | syntaxBound (language detail : String)
  | scannerEvidence (scanner detail : String)
  | truncated (subject : String) (available required : Nat)
deriving DecidableEq

inductive SourceQuery where
  | anchor (id : String)
  | excerpt (id : String)
  | specimen (id : String)
deriving DecidableEq

inductive GroundedEvidence where
  | anchor (row : IndexAnchor)
  | excerpt (row : Excerpt)
  | specimen (row : SpecimenPin)
deriving DecidableEq

structure DeckLimits where
  repositories : Nat
  fragments : Nat
  files : Nat
  excerpts : Nat
  specimens : Nat
  queries : Nat
  totalBytes : Nat
deriving DecidableEq

structure SourceDeck where
  id : SourceDeckId
  repositories : List RepositorySnapshot
  fragments : List FragmentPin
  files : List SourceFile
  evidence : List GroundedEvidence
  limitations : List Limitation
deriving DecidableEq

inductive Failure where
  | unresolved (kind id : String)
  | ambiguous (kind id : String)
  | stale (subject : String)
  | truncated (subject : String)
  | overLimit (limit : String) (actual maximum : Nat)
  | invalidPath (path : String)
  | ownerMismatch (subject : String)
  | duplicate (kind id : String)
  | danglingAnchor (anchor : String)
  | unclaimed (anchor : String)
  | multiplyClaimed (anchor : String)
  | substituted (anchor : String)
  | certificateDigestMismatch (anchor : String)
  | contentMismatch (subject : String)
  | excerptForgery (id : String)
  | missingLimitation (reason : String)
  | collision (subject : String)
  | decode (reason : String)
  | canonical (reason : String)
deriving DecidableEq

/-- What a deck is built from; the decoder of fragments is the caller's. -/
structure DeckInput where
  repositories : List RepositorySnapshot
  fragments : List FragmentPin
  certificates : List ClaimCertificate
  files : List SourceFile
  excerpts : List Excerpt
  specimens : List SpecimenPin
  queries : List SourceQuery
  limitations : List Limitation
  limits : DeckLimits
  decode : List UInt8 → Except Failure IndexFragment

/-! ## Identities -/

def tag (ns name : String) : Symbol := .qualified ns name

def field (name value : String) : Symbol × Datum := (.new name, .string value)

def cidText (id : ContentId) : String := id.algorithm.display ++ ":" ++ Text.hex id.bytes

def cidField (name : String) (id : ContentId) : Symbol × Datum := (.new name, .string (cidText id))

def ByteContentId.datum (bytes : List UInt8) : Datum :=
  .node (tag "source-deck" "bytes-v1") [(.new "bytes", .bytes bytes)]

/-- Identity of bytes that are not interpreted. -/
def ByteContentId.of (contentId : ContentIdOf) (bytes : List UInt8) :
    Except Failure ByteContentId :=
  ((contentId (datum bytes)).mapError .canonical).map .mk

def ClaimCertificate.expectedDigest (contentId : ContentIdOf) (c : ClaimCertificate) :
    Except Failure ByteContentId :=
  ((contentId (.node (tag "source-deck" "claim-certificate-v1") [
    field "anchor" c.anchor,
    field "owner" c.owner,
    cidField "fragment" c.fragmentId.content])).mapError .canonical).map .mk

end SimAgentNet.SourceDecks
