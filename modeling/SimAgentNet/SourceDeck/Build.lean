import SimAgentNet.Data.Index
import SimAgentNet.Data.Path
import SimAgentNet.SourceDeck.Model

/-! # Building a source deck

The checks of an input, the indexes that they build, and the deck that answers the queries. The
debugging texts of the standard library are written with `DebugText`, which leaves the table of
printable characters and the text of a content id open. -/

namespace SimAgentNet.SourceDecks

/-! ## Canonical rows -/

/-- What the debugging texts depend on: the characters that are written as they are, and the text
of a kernel content id. -/
structure DebugText where
  printable : Char → Bool
  contentId : ContentId → List Char

namespace DebugText
variable (d : DebugText)

def escape (c : Char) : List Char :=
  if c = '\x00' then ['\\', '0']
  else if c = '\t' then ['\\', 't']
  else if c = '\r' then ['\\', 'r']
  else if c = '\n' then ['\\', 'n']
  else if c = '"' then ['\\', '"']
  else if c = '\\' then ['\\', '\\']
  else if d.printable c then [c]
  else ['\\', 'u', '\x7b'] ++ Nat.toDigits 16 c.toNat ++ ['\x7d']

def string (s : String) : List Char := '"' :: s.toList.flatMap d.escape ++ ['"']

def nat (n : Nat) : List Char := (toString n : String).toList

def option (s : Option String) : List Char :=
  match s with
  | none => "None".toList
  | some s => "Some(".toList ++ d.string s ++ [')']

def bytes (bs : List UInt8) : List Char :=
  '[' :: (", ".toList.intercalate (bs.map fun b => nat b.toNat)) ++ [']']

/-- A struct or variant with named fields. -/
def record (name : String) (fields : List (String × List Char)) : List Char :=
  name.toList ++ " \x7b ".toList ++
    (", ".toList.intercalate (fields.map fun f => f.1.toList ++ ": ".toList ++ f.2)) ++ " \x7d".toList

def tuple (name : String) (text : List Char) : List Char := name.toList ++ '(' :: text ++ [')']

def evidence : GroundedEvidence → List Char
  | .anchor row => tuple "Anchor" (record "IndexAnchor"
      [("id", d.string row.id), ("owner", d.string row.owner),
        ("source_path", d.option row.sourcePath)])
  | .excerpt row => tuple "Excerpt" (record "Excerpt"
      [("id", d.string row.id), ("owner", d.string row.owner), ("path", d.string row.path),
        ("start", nat row.start), ("end", nat row.end), ("bytes", bytes row.bytes)])
  | .specimen row => tuple "Specimen" (record "SpecimenPin"
      [("id", d.string row.id), ("owner", d.string row.owner), ("bytes", bytes row.bytes),
        ("content_id", tuple "ByteContentId" (d.contentId row.contentId.content))])

def limitation : Limitation → List Char
  | .syntaxBound language detail =>
    record "SyntaxBound" [("language", d.string language), ("detail", d.string detail)]
  | .scannerEvidence scanner detail =>
    record "ScannerEvidence" [("scanner", d.string scanner), ("detail", d.string detail)]
  | .truncated subject available required =>
    record "Truncated" [("subject", d.string subject), ("available", nat available),
      ("required", nat required)]

end DebugText

/-- A key and a value of the canonical map. -/
abbrev Row := String × String

def repositoryRow (v : RepositorySnapshot) : Row :=
  ("repo:" ++ v.owner, v.repository ++ ":" ++ v.revision)

def fragmentRow (v : FragmentPin) : Row := ("fragment:" ++ v.owner, cidText v.contentId.content)

def fileRow (v : SourceFile) : Row :=
  ("file:" ++ v.owner ++ ":" ++ v.path, cidText v.contentId.content)

def evidenceRow (d : DebugText) (v : GroundedEvidence) : Row :=
  ("evidence:" ++ .ofList (d.evidence v), .ofList (d.evidence v))

def limitationRow (d : DebugText) (v : Limitation) : Row :=
  ("limitation:" ++ .ofList (d.limitation v), .ofList (d.limitation v))

def rows (d : DebugText) (repos : List RepositorySnapshot) (fragments : List FragmentPin)
    (files : List SourceFile) (evidence : List GroundedEvidence) (limitations : List Limitation) :
    List Row :=
  repos.map repositoryRow ++ fragments.map fragmentRow ++ files.map fileRow ++
    evidence.map (evidenceRow d) ++ limitations.map (limitationRow d)

/-- The datum of a deck, from its sorted rows. -/
def deckDatum (rows : List Row) : Datum :=
  .node (tag "source-deck" "deck-v1")
    [(.new "entries", .map (rows.map fun r => (.string r.1, .string r.2)))]

def canonical (d : DebugText) (repos : List RepositorySnapshot) (fragments : List FragmentPin)
    (files : List SourceFile) (evidence : List GroundedEvidence) (limitations : List Limitation) :
    Datum :=
  deckDatum ((rows d repos fragments files evidence limitations).insertionSort
    fun a b => toLex a ≤ toLex b)

/-! ## Checks -/

def required (value : String) : Except Failure Unit :=
  if value.isEmpty then .error (.stale "empty identity field") else .ok ()

def validPath (path : String) : Except Failure Unit :=
  if path.isEmpty ∨ PathText.isAbsolute path ∨
      (PathText.segments path).any (fun p => p = [] ∨ p = ['.'] ∨ p = ['.', '.']) ∨
      Text.hasChar path '\\' then
    .error (.invalidPath path)
  else .ok ()

def checkCount (name : String) (actual maximum : Nat) : Except Failure Unit :=
  if actual > maximum then .error (.overLimit name actual maximum) else .ok ()

def requireOwner (owners : SortedSet String) (owner subject : String) : Except Failure Unit :=
  if owner ∈ owners then .ok () else .error (.ownerMismatch subject)

def unique (kind : String) (ids : List String) : Except Failure Unit := do
  let _ ← ids.foldlM (fun (seen : SortedSet String) id =>
    if id ∈ seen then .error (.duplicate kind id) else .ok (seen.insert id)) ∅

section
variable (contentId : ContentIdOf)

def verifyContent (subject : String) (bytes : List UInt8) (expected : ByteContentId) :
    Except Failure Unit := do
  let actual ← ByteContentId.of contentId bytes
  if actual = expected then .ok () else .error (.contentMismatch subject)

def checkCounts (input : DeckInput) : Except Failure Unit := do
  checkCount "repositories" input.repositories.length input.limits.repositories
  checkCount "fragments" input.fragments.length input.limits.fragments
  checkCount "files" input.files.length input.limits.files
  checkCount "excerpts" input.excerpts.length input.limits.excerpts
  checkCount "specimens" input.specimens.length input.limits.specimens
  checkCount "queries" input.queries.length input.limits.queries
  let totalBytes := (input.fragments.map (·.bytes.length) ++ input.files.map (·.bytes.length) ++
    input.specimens.map (·.bytes.length)).sum
  checkCount "total-bytes" totalBytes input.limits.totalBytes

def repoOwners (input : DeckInput) : SortedSet String :=
  .ofList (input.repositories.map (·.owner))

def checkRepositories (input : DeckInput) : Except Failure Unit := do
  unique "repository" (input.repositories.map (·.owner))
  input.repositories.forM fun repo => do
    required repo.owner
    required repo.repository
    required repo.revision

/-! ## Indexes -/

def decodeFragment (input : DeckInput) (pin : FragmentPin) :
    Except Failure (FragmentPin × IndexFragment) := do
  requireOwner (repoOwners input) pin.owner "fragment"
  verifyContent contentId "fragment" pin.bytes pin.contentId
  let fragment ← input.decode pin.bytes
  if fragment.owner ≠ pin.owner then .error (.ownerMismatch pin.owner) else .ok (pin, fragment)

/-- Anchors with their pins, and specimens, by id. -/
structure FragmentIndex where
  anchors : SortedMap String (List (FragmentPin × IndexAnchor))
  specimens : SortedMap String (List IndexSpecimen)

def checkSourcePath : Option String → Except Failure Unit
  | none => .ok ()
  | some path => validPath path

def addAnchor (pin : FragmentPin) (owner : String)
    (anchors : SortedMap String (List (FragmentPin × IndexAnchor))) (anchor : IndexAnchor) :
    Except Failure (SortedMap String (List (FragmentPin × IndexAnchor))) :=
  if anchor.owner ≠ owner then .error (.ownerMismatch anchor.id)
  else do
    checkSourcePath anchor.sourcePath
    return Index.push (·.2.id) anchors (pin, anchor)

def addSpecimen (owner : String) (specimens : SortedMap String (List IndexSpecimen))
    (specimen : IndexSpecimen) : Except Failure (SortedMap String (List IndexSpecimen)) :=
  if specimen.owner ≠ owner then .error (.ownerMismatch specimen.id)
  else .ok (Index.push (·.id) specimens specimen)

def addFragment (index : FragmentIndex) (decoded : FragmentPin × IndexFragment) :
    Except Failure FragmentIndex := do
  let anchors ← decoded.2.anchors.foldlM (addAnchor decoded.1 decoded.2.owner) index.anchors
  let specimens ← decoded.2.specimens.foldlM (addSpecimen decoded.2.owner) index.specimens
  return { anchors, specimens }

/-- The check of one anchor id; the index has a row for each of its ids. -/
def checkCertificate (certificates : List ClaimCertificate) (id : String)
    (rows : List (FragmentPin × IndexAnchor)) : Except Failure Unit :=
  if rows.length > 1 then .error (.multiplyClaimed id)
  else match certificates.filter fun v => v.anchor = id, rows with
    | [], _ => .error (.unclaimed id)
    | [cert], (pin, anchor) :: _ =>
      if cert.owner ≠ anchor.owner ∨ cert.fragmentId ≠ pin.contentId then .error (.substituted id)
      else do
        let digest ← cert.expectedDigest contentId
        if cert.digest ≠ digest then .error (.certificateDigestMismatch id) else .ok ()
    | [_], [] => .ok ()
    | _, _ => .error (.multiplyClaimed id)

def checkCertificates (input : DeckInput) (index : FragmentIndex) : Except Failure Unit := do
  unique "certificate" (input.certificates.map (·.anchor))
  index.anchors.entries.forM fun (id, rows) => checkCertificate contentId input.certificates id rows
  input.certificates.forM fun cert =>
    if index.anchors.contains cert.anchor then .ok () else .error (.danglingAnchor cert.anchor)

/-- Files by owner and path. -/
abbrev FileIndex := SortedMap (String ×ₗ String) SourceFile

def fileKey (file : SourceFile) : String ×ₗ String := toLex (file.owner, file.path)

def checkFile (input : DeckInput) (file : SourceFile) : Except Failure Unit := do
  requireOwner (repoOwners input) file.owner file.path
  validPath file.path
  verifyContent contentId file.path file.bytes file.contentId

def indexFiles (input : DeckInput) : Except Failure FileIndex :=
  input.files.foldlM
    (Index.insertNew fileKey (checkFile contentId input) fun file => .duplicate "file" file.path) ∅

def checkAnchorSource (files : FileIndex) (anchor : IndexAnchor) : Except Failure Unit :=
  match anchor.sourcePath with
  | none => .ok ()
  | some path =>
    if files.contains (toLex (anchor.owner, path)) then .ok ()
    else .error (.unresolved "anchor source" (anchor.owner ++ ":" ++ path))

def checkAnchorSources (files : FileIndex) (index : FragmentIndex) : Except Failure Unit :=
  index.anchors.values.forM fun rows => rows.forM fun row => checkAnchorSource files row.2

def checkExcerpt (files : FileIndex) (excerpt : Excerpt) : Except Failure Unit := do
  validPath excerpt.path
  match files.get? (toLex (excerpt.owner, excerpt.path)) with
  | none => .error (.unresolved "file" excerpt.path)
  | some file =>
    if excerpt.end < excerpt.start ∨ excerpt.end > file.bytes.length then
      .error (.truncated excerpt.id)
    else if (file.bytes.take excerpt.end).drop excerpt.start ≠ excerpt.bytes then
      .error (.excerptForgery excerpt.id)
    else .ok ()

def indexExcerpts (input : DeckInput) (files : FileIndex) :
    Except Failure (SortedMap String Excerpt) :=
  input.excerpts.foldlM
    (Index.insertNew (·.id) (checkExcerpt files) fun v => .duplicate "excerpt" v.id) ∅

def checkSpecimen (input : DeckInput) (index : FragmentIndex) (specimen : SpecimenPin) :
    Except Failure Unit := do
  requireOwner (repoOwners input) specimen.owner specimen.id
  verifyContent contentId specimen.id specimen.bytes specimen.contentId
  match index.specimens.get? specimen.id with
  | none => .error (.unresolved "specimen" specimen.id)
  | some [row] =>
    if row.owner = specimen.owner then .ok () else .error (.ownerMismatch specimen.id)
  | some _ => .error (.ambiguous "specimen" specimen.id)

def indexSpecimens (input : DeckInput) (index : FragmentIndex) :
    Except Failure (SortedMap String SpecimenPin) :=
  input.specimens.foldlM
    (Index.insertNew (·.id) (checkSpecimen contentId input index) fun v =>
      .duplicate "specimen" v.id) ∅

/-! ## The deck -/

def answer (index : FragmentIndex) (excerpts : SortedMap String Excerpt)
    (specimens : SortedMap String SpecimenPin) : SourceQuery → Except Failure GroundedEvidence
  | .anchor id =>
    match index.anchors.get? id with
    | none => .error (.unresolved "anchor" id)
    | some [(_, row)] => .ok (.anchor row)
    | some _ => .error (.ambiguous "anchor" id)
  | .excerpt id =>
    match excerpts.get? id with
    | none => .error (.unresolved "excerpt" id)
    | some row => .ok (.excerpt row)
  | .specimen id =>
    match specimens.get? id with
    | none => .error (.unresolved "specimen" id)
    | some row => .ok (.specimen row)

def Limitation.isEmpty : Limitation → Bool
  | .syntaxBound _ detail | .scannerEvidence _ detail => detail.isEmpty
  | .truncated .. => false

/-- Validates every input and mints the deck only after every query is grounded. -/
def build (d : DebugText) (input : DeckInput) : Except Failure SourceDeck := do
  checkCounts input
  checkRepositories input
  let decoded ← input.fragments.mapM (decodeFragment contentId input)
  let index ← decoded.foldlM addFragment ⟨∅, ∅⟩
  checkCertificates contentId input index
  let files ← indexFiles contentId input
  checkAnchorSources files index
  let excerpts ← indexExcerpts input files
  let specimens ← indexSpecimens contentId input index
  let evidence ← input.queries.mapM (answer index excerpts specimens)
  if input.limitations.any Limitation.isEmpty then
    .error (.missingLimitation "empty limitation evidence")
  else
    let datum := canonical d input.repositories input.fragments input.files evidence
      input.limitations
    let id ← (contentId datum).mapError .canonical
    return {
      id := ⟨id⟩
      repositories := input.repositories
      fragments := input.fragments
      files := input.files
      evidence
      limitations := input.limitations }

end

end SimAgentNet.SourceDecks
