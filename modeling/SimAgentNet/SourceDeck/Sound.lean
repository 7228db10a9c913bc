import SimAgentNet.RoadmapRunner.Memory
import SimAgentNet.SourceDeck.Build

/-! # Grounded decks

What a deck that was built says of its evidence: every row answers its query and is backed by one
file, fragment or specimen of a listed repository. -/

namespace SimAgentNet.SourceDecks

section
variable {contentId : ContentIdOf} {debug : DebugText} {input : DeckInput} {index : FragmentIndex}
  {files : FileIndex} {id : String}

/-! ## The checks -/

theorem checkOwner_iff {owners : SortedSet String} :
    requireOwner owners owner subject = .ok () ↔ owner ∈ owners := by
  unfold requireOwner
  split
  · exact ⟨fun _ => ‹_›, fun _ => rfl⟩
  · exact ⟨nofun, fun h => absurd h ‹_›⟩

/-- The owner has a repository. -/
def Listed (input : DeckInput) (owner : String) : Prop :=
  ∃ r ∈ input.repositories, r.owner = owner

theorem mem_repoOwners : owner ∈ repoOwners input ↔ Listed input owner := by
  rw [repoOwners, SortedSet.mem_ofList, List.mem_map, Listed]

theorem verifyContent_iff :
    verifyContent contentId subject bytes expected = .ok () ↔
      ByteContentId.of contentId bytes = .ok expected := by
  rw [verifyContent, Except.bind_eq_ok_iff]
  constructor
  · rintro ⟨actual, hactual, h⟩
    split at h
    · rename_i heq
      rw [hactual, heq]
    · cases h
  · intro h
    exact ⟨expected, h, if_pos rfl⟩

/-! ## Decoded fragments -/

/-- A pin and the fragment that its bytes decode to. -/
structure DecodedFrom (contentId : ContentIdOf) (input : DeckInput) (pin : FragmentPin)
    (decoded : FragmentPin × IndexFragment) : Prop where
  same : decoded.1 = pin
  decode : input.decode pin.bytes = .ok decoded.2
  content : ByteContentId.of contentId pin.bytes = .ok pin.contentId
  owner : decoded.2.owner = pin.owner
  listed : Listed input pin.owner

theorem decodedFrom_of_decodeFragment (h : decodeFragment contentId input pin = .ok decoded) :
    DecodedFrom contentId input pin decoded := by
  simp only [decodeFragment, Except.bind_eq_ok_iff, Except.guard_eq_ok_iff] at h
  obtain ⟨_, howner, _, hcontent, fragment, hdecode, heq, h⟩ := h
  cases h
  exact ⟨rfl, hdecode, verifyContent_iff.mp hcontent, not_ne_iff.mp heq,
    mem_repoOwners.mp (checkOwner_iff.mp howner)⟩

theorem forall₂_of_mapM {f : α → Except ε β} {as : List α} {bs : List β}
    (h : as.mapM f = .ok bs) : List.Forall₂ (fun a b => f a = .ok b) as bs := by
  induction as generalizing bs with
  | nil =>
    cases h
    exact .nil
  | cons a as ih =>
    rw [List.mapM_cons, Except.bind_eq_ok_iff] at h
    obtain ⟨b, hb, h⟩ := h
    obtain ⟨bs, hbs, h⟩ := Except.bind_eq_ok_iff.mp h
    cases h
    exact .cons hb (ih hbs)

/-- A member of the right list has a partner on the left. -/
theorem exists_left_of_forall₂ {R : α → β → Prop} {as : List α} {bs : List β}
    (h : List.Forall₂ R as bs) (hb : b ∈ bs) : ∃ a ∈ as, R a b := by
  induction h with
  | nil => cases hb
  | cons hab _ ih =>
    obtain rfl | hb := List.mem_cons.mp hb
    · exact ⟨_, List.mem_cons_self, hab⟩
    · obtain ⟨a, ha, hR⟩ := ih hb
      exact ⟨a, List.mem_cons_of_mem _ ha, hR⟩

/-! ## The index of the fragments -/

/-- The anchors of some fragments, each with the pin of its fragment. -/
def anchorRows (decoded : List (FragmentPin × IndexFragment)) : List (FragmentPin × IndexAnchor) :=
  decoded.flatMap fun d => d.2.anchors.map fun a => (d.1, a)

def specimenRows (decoded : List (FragmentPin × IndexFragment)) : List IndexSpecimen :=
  decoded.flatMap (·.2.specimens)

/-- The index has the anchors and specimens of the fragments, which own them. -/
structure Indexed (decoded : List (FragmentPin × IndexFragment)) (index : FragmentIndex) :
    Prop where
  anchors : Index.Groups (·.2.id) (anchorRows decoded) index.anchors
  specimens : Index.Groups (·.id) (specimenRows decoded) index.specimens
  anchor_owner : ∀ d ∈ decoded, ∀ a ∈ d.2.anchors, a.owner = d.2.owner
  specimen_owner : ∀ d ∈ decoded, ∀ s ∈ d.2.specimens, s.owner = d.2.owner

theorem groups_of_addAnchors {rows : List (FragmentPin × IndexAnchor)}
    {m m' : SortedMap String (List (FragmentPin × IndexAnchor))} {anchors : List IndexAnchor}
    (hm : Index.Groups (·.2.id) rows m) (h : anchors.foldlM (addAnchor pin owner) m = .ok m') :
    Index.Groups (·.2.id) (rows ++ anchors.map fun a => (pin, a)) m' ∧
      ∀ a ∈ anchors, a.owner = owner := by
  induction anchors generalizing rows m with
  | nil =>
    cases h
    exact ⟨by simpa using hm, nofun⟩
  | cons a anchors ih =>
    obtain ⟨u, hu, h⟩ := Run.foldlM_cons_eq_ok_iff.mp h
    obtain ⟨howner, hu⟩ := Except.guard_eq_ok_iff.mp hu
    obtain ⟨_, -, hu⟩ := Except.bind_eq_ok_iff.mp hu
    cases hu
    obtain ⟨hgroups, hrest⟩ := ih hm.push h
    refine ⟨by simpa using hgroups, fun a' ha' => ?_⟩
    obtain rfl | ha' := List.mem_cons.mp ha'
    · exact not_ne_iff.mp howner
    · exact hrest a' ha'

theorem groups_of_addSpecimens {rows : List IndexSpecimen}
    {m m' : SortedMap String (List IndexSpecimen)} {specimens : List IndexSpecimen}
    (hm : Index.Groups (·.id) rows m) (h : specimens.foldlM (addSpecimen owner) m = .ok m') :
    Index.Groups (·.id) (rows ++ specimens) m' ∧ ∀ s ∈ specimens, s.owner = owner := by
  induction specimens generalizing rows m with
  | nil =>
    cases h
    exact ⟨by simpa using hm, nofun⟩
  | cons s specimens ih =>
    obtain ⟨u, hu, h⟩ := Run.foldlM_cons_eq_ok_iff.mp h
    obtain ⟨howner, hu⟩ := Except.guard_eq_ok_iff.mp hu
    cases hu
    obtain ⟨hgroups, hrest⟩ := ih hm.push h
    refine ⟨by simpa using hgroups, fun s' hs' => ?_⟩
    obtain rfl | hs' := List.mem_cons.mp hs'
    · exact not_ne_iff.mp howner
    · exact hrest s' hs'

theorem indexed_of_addFragments (h : decoded.foldlM addFragment ⟨∅, ∅⟩ = .ok index) :
    Indexed decoded index := by
  refine Run.induct (P := Indexed) ⟨.nil, .nil, nofun, nofun⟩ (fun ds m d m' ih hstep => ?_) h
  obtain ⟨anchors, hanchors, hstep⟩ := Except.bind_eq_ok_iff.mp hstep
  obtain ⟨specimens, hspecimens, hstep⟩ := Except.bind_eq_ok_iff.mp hstep
  cases hstep
  obtain ⟨hga, hoa⟩ := groups_of_addAnchors ih.anchors hanchors
  obtain ⟨hgs, hos⟩ := groups_of_addSpecimens ih.specimens hspecimens
  refine ⟨by simpa [anchorRows] using hga, by simpa [specimenRows] using hgs, ?_, ?_⟩
  · intro d' hd'
    obtain hd' | hd' := List.mem_append.mp hd'
    · exact ih.anchor_owner d' hd'
    · exact List.mem_singleton.mp hd' ▸ hoa
  · intro d' hd'
    obtain hd' | hd' := List.mem_append.mp hd'
    · exact ih.specimen_owner d' hd'
    · exact List.mem_singleton.mp hd' ▸ hos

/-! ## Certificates, files and specimens -/

/-- The certificate names the fragment of the pin and has the digest of its own fields. -/
structure CertifiedBy (contentId : ContentIdOf) (pin : FragmentPin) (owner : String)
    (cert : ClaimCertificate) : Prop where
  owner : cert.owner = owner
  fragment : cert.fragmentId = pin.contentId
  digest : cert.expectedDigest contentId = .ok cert.digest

theorem checkCertificate_ok {certs : List ClaimCertificate}
    {rows : List (FragmentPin × IndexAnchor)} (hne : rows ≠ [])
    (h : checkCertificate contentId certs id rows = .ok ()) :
    ∃ pin anchor cert, rows = [(pin, anchor)] ∧
      certs.filter (fun v => v.anchor = id) = [cert] ∧
      CertifiedBy contentId pin anchor.owner cert := by
  obtain ⟨hlen, h⟩ := Except.guard_eq_ok_iff.mp h
  split at h
  · cases h
  · rename_i cert pin anchor rest hcerts _
    obtain ⟨hsame, h⟩ := Except.guard_eq_ok_iff.mp h
    obtain ⟨digest, hdigest, h⟩ := Except.bind_eq_ok_iff.mp h
    obtain ⟨heq, -⟩ := Except.guard_eq_ok_iff.mp h
    rw [not_or, not_ne_iff, not_ne_iff] at hsame
    have hrest : rest = [] := by
      cases rest with
      | nil => rfl
      | cons r rest => exact absurd (by simp) hlen
    refine ⟨pin, anchor, cert, by rw [hrest], hcerts, hsame.1, hsame.2, ?_⟩
    rw [hdigest, not_ne_iff.mp heq]
  · exact absurd rfl hne
  · cases h

theorem checkSourcePath_of_ok (h : checkAnchorSource files anchor = .ok ()) :
    ∀ path, anchor.sourcePath = some path →
      files.contains (toLex (anchor.owner, path)) = true := by
  intro path hpath
  rw [checkAnchorSource, hpath] at h
  simp only at h
  split at h
  · assumption
  · cases h

/-- The bytes of the excerpt are the range of one file, which has its owner and path. -/
structure ExcerptOf (contentId : ContentIdOf) (input : DeckInput) (row : Excerpt)
    (file : SourceFile) : Prop where
  only : input.files.filter (fun f => f.owner = row.owner ∧ f.path = row.path) = [file]
  content : ByteContentId.of contentId file.bytes = .ok file.contentId
  ordered : row.start ≤ row.end
  within : row.end ≤ file.bytes.length
  slice : row.bytes = (file.bytes.take row.end).drop row.start
  listed : Listed input row.owner

theorem checkFile_ok (h : checkFile contentId input file = .ok ()) :
    Listed input file.owner ∧
      ByteContentId.of contentId file.bytes = .ok file.contentId := by
  obtain ⟨_, howner, h⟩ := Except.bind_eq_ok_iff.mp h
  obtain ⟨_, -, h⟩ := Except.bind_eq_ok_iff.mp h
  exact ⟨mem_repoOwners.mp (checkOwner_iff.mp howner), verifyContent_iff.mp h⟩

theorem fileKey_eq_iff {f : SourceFile} :
    fileKey f = toLex (owner, path) ↔ f.owner = owner ∧ f.path = path := by
  rw [fileKey, toLex_inj, Prod.mk.injEq]

theorem checkExcerpt_ok (hfiles : indexFiles contentId input = .ok files)
    (h : checkExcerpt files row = .ok ()) : ∃ file, ExcerptOf contentId input row file := by
  obtain ⟨hchecked, hsingle⟩ := Index.single_of_foldlM hfiles
  obtain ⟨_, -, h⟩ := Except.bind_eq_ok_iff.mp h
  split at h
  · cases h
  · rename_i file hget
    have honly := hsingle.eq_of_get? hget
    simp only [fileKey_eq_iff] at honly
    have hmem : file ∈ input.files.filter fun f => f.owner = row.owner ∧ f.path = row.path :=
      honly ▸ List.mem_singleton_self file
    obtain ⟨hfile, hkey⟩ := List.mem_filter.mp hmem
    obtain ⟨hlisted, hcontent⟩ := checkFile_ok (hchecked file hfile)
    obtain ⟨hrange, h⟩ := Except.guard_eq_ok_iff.mp h
    obtain ⟨hslice, -⟩ := Except.guard_eq_ok_iff.mp h
    rw [not_or, Nat.not_lt, gt_iff_lt, Nat.not_lt] at hrange
    have howner : file.owner = row.owner := (of_decide_eq_true hkey).1
    exact ⟨file, honly, hcontent, hrange.1, hrange.2, (not_ne_iff.mp hslice).symm, howner ▸ hlisted⟩

/-! ## Grounded rows -/

/-- One fragment has the anchor, once, and one certificate names it. -/
structure AnchorOf (contentId : ContentIdOf) (input : DeckInput)
    (decoded : List (FragmentPin × IndexFragment)) (row : IndexAnchor)
    (d : FragmentPin × IndexFragment) (cert : ClaimCertificate) : Prop where
  only : decoded.filter (fun d => d.2.anchors.any fun a => a.id = row.id) = [d]
  once : d.2.anchors.filter (fun a => a.id = row.id) = [row]
  owner : row.owner = d.2.owner
  certificate : input.certificates.filter (fun v => v.anchor = row.id) = [cert]
  certified : CertifiedBy contentId d.1 row.owner cert
  source : ∀ path, row.sourcePath = some path →
    ∃ f ∈ input.files, f.owner = row.owner ∧ f.path = path
  listed : Listed input row.owner

/-- One fragment lists the specimen, once, and owns it. -/
structure SpecimenOf (contentId : ContentIdOf) (input : DeckInput)
    (decoded : List (FragmentPin × IndexFragment)) (row : SpecimenPin)
    (d : FragmentPin × IndexFragment) : Prop where
  only : decoded.filter (fun d => d.2.specimens.any fun s => s.id = row.id) = [d]
  once : ∃ s, d.2.specimens.filter (fun s => s.id = row.id) = [s]
  owner : row.owner = d.2.owner
  content : ByteContentId.of contentId row.bytes = .ok row.contentId
  listed : Listed input row.owner

/-- The row answers the query and is backed by the input. -/
def Grounds (contentId : ContentIdOf) (input : DeckInput)
    (decoded : List (FragmentPin × IndexFragment)) : SourceQuery → GroundedEvidence → Prop
  | .anchor id, .anchor row => row.id = id ∧ ∃ d cert, AnchorOf contentId input decoded row d cert
  | .excerpt id, .excerpt row =>
    row.id = id ∧ row ∈ input.excerpts ∧ ∃ file, ExcerptOf contentId input row file
  | .specimen id, .specimen row =>
    row.id = id ∧ row ∈ input.specimens ∧ ∃ d, SpecimenOf contentId input decoded row d
  | _, _ => False

section
variable {decoded : List (FragmentPin × IndexFragment)}
  (hdecoded : List.Forall₂ (DecodedFrom contentId input) input.fragments decoded)
  (hindex : Indexed decoded index)
include hdecoded hindex

omit hindex in
/-- The owner of a decoded fragment is listed. -/
theorem listed_of_decoded {d : FragmentPin × IndexFragment} (hd : d ∈ decoded) : Listed input d.2.owner := by
  obtain ⟨pin, -, hpin⟩ := exists_left_of_forall₂ hdecoded hd
  exact hpin.owner ▸ hpin.listed

theorem anchorOf_of_get? (hcerts : checkCertificates contentId input index = .ok ())
    (hfiles : indexFiles contentId input = .ok files)
    (hsources : checkAnchorSources files index = .ok ())
    (hget : index.anchors.get? id = some [(pin, row)]) :
    row.id = id ∧ ∃ d cert, AnchorOf contentId input decoded row d cert := by
  have hrows := hindex.anchors.eq_of_get? hget
  have hid : row.id = id := by
    have hmem : (pin, row) ∈ (anchorRows decoded).filter fun a => a.2.id = id :=
      hrows ▸ List.mem_singleton_self _
    exact of_decide_eq_true (List.mem_filter.mp hmem).2
  subst hid
  obtain ⟨d, honly, honce⟩ := Index.exists_of_flatMap_filter hrows
  simp only [List.any_map, Function.comp_def] at honly
  rw [List.filter_map, Function.comp_def, List.map_eq_singleton_iff] at honce
  obtain ⟨a, honce, hpair⟩ := honce
  cases hpair
  have hd : d ∈ decoded := by
    have hmem : d ∈ decoded.filter fun d => d.2.anchors.any fun a => a.id = row.id :=
      honly ▸ List.mem_singleton_self d
    exact (List.mem_filter.mp hmem).1
  have hrow : row ∈ d.2.anchors := by
    have hmem : row ∈ d.2.anchors.filter fun a => a.id = row.id :=
      honce ▸ List.mem_singleton_self row
    exact (List.mem_filter.mp hmem).1
  have howner := hindex.anchor_owner d hd row hrow
  obtain ⟨_, -, hcerts⟩ := Except.bind_eq_ok_iff.mp hcerts
  obtain ⟨_, hcerts, -⟩ := Except.bind_eq_ok_iff.mp hcerts
  have hcert := Except.forM_eq_ok_iff.mp hcerts _ (SortedMap.get?_eq_some_iff.mp hget)
  obtain ⟨pin, anchor, cert, heq, hcert, hcertified⟩ :=
    checkCertificate_ok (List.cons_ne_nil _ _) hcert
  cases heq
  refine ⟨rfl, d, cert, honly, honce, howner, hcert, hcertified, ?_, ?_⟩
  · intro path hpath
    have hmem : [(d.1, row)] ∈ index.anchors.values := SortedMap.mem_values_iff.mpr ⟨_, hget⟩
    have hsource := Except.forM_eq_ok_iff.mp (Except.forM_eq_ok_iff.mp hsources _ hmem) _
      (List.mem_singleton_self _)
    have hfile := checkSourcePath_of_ok hsource path hpath
    obtain ⟨-, hsingle⟩ := Index.single_of_foldlM hfiles
    obtain ⟨f, hf, hkey⟩ := hsingle.contains_iff.mp hfile
    exact ⟨f, hf, fileKey_eq_iff.mp hkey⟩
  · exact howner ▸ listed_of_decoded hdecoded hd

omit hdecoded in
theorem specimenOf_of_check (h : checkSpecimen contentId input index row = .ok ()) :
    ∃ d, SpecimenOf contentId input decoded row d := by
  obtain ⟨_, hlisted, h⟩ := Except.bind_eq_ok_iff.mp h
  obtain ⟨_, hcontent, h⟩ := Except.bind_eq_ok_iff.mp h
  split at h
  · cases h
  · rename_i s hget
    split at h
    · rename_i howner
      obtain ⟨d, honly, honce⟩ :=
        Index.exists_of_flatMap_filter (hindex.specimens.eq_of_get? hget)
      have hd : d ∈ decoded := by
        have hmem : d ∈ decoded.filter fun d => d.2.specimens.any fun s => s.id = row.id :=
          honly ▸ List.mem_singleton_self d
        exact (List.mem_filter.mp hmem).1
      have hs : s ∈ d.2.specimens := by
        have hmem : s ∈ d.2.specimens.filter fun s => s.id = row.id :=
          honce ▸ List.mem_singleton_self s
        exact (List.mem_filter.mp hmem).1
      exact ⟨d, honly, ⟨s, honce⟩, howner.symm.trans (hindex.specimen_owner d hd s hs),
        verifyContent_iff.mp hcontent, mem_repoOwners.mp (checkOwner_iff.mp hlisted)⟩
    · cases h
  · cases h

theorem grounds_of_answer (hcerts : checkCertificates contentId input index = .ok ())
    (hfiles : indexFiles contentId input = .ok files)
    (hsources : checkAnchorSources files index = .ok ())
    (hexcerpts : indexExcerpts input files = .ok excerpts)
    (hspecimens : indexSpecimens contentId input index = .ok specimens)
    (h : answer index excerpts specimens query = .ok row) :
    Grounds contentId input decoded query row := by
  cases query with
  | anchor id =>
    simp only [answer] at h
    split at h
    · cases h
    · rename_i hget
      cases h
      exact anchorOf_of_get? hdecoded hindex hcerts hfiles hsources hget
    · cases h
  | excerpt id =>
    simp only [answer] at h
    split at h
    · cases h
    · rename_i found hget
      cases h
      obtain ⟨hchecked, hsingle⟩ := Index.single_of_foldlM hexcerpts
      have hmem : found ∈ input.excerpts.filter fun v => v.id = id :=
        hsingle.eq_of_get? hget ▸ List.mem_singleton_self found
      obtain ⟨hfound, hid⟩ := List.mem_filter.mp hmem
      exact ⟨of_decide_eq_true hid, hfound, checkExcerpt_ok hfiles (hchecked found hfound)⟩
  | specimen id =>
    simp only [answer] at h
    split at h
    · cases h
    · rename_i found hget
      cases h
      obtain ⟨hchecked, hsingle⟩ := Index.single_of_foldlM hspecimens
      have hmem : found ∈ input.specimens.filter fun v => v.id = id :=
        hsingle.eq_of_get? hget ▸ List.mem_singleton_self found
      obtain ⟨hfound, hid⟩ := List.mem_filter.mp hmem
      exact ⟨of_decide_eq_true hid, hfound,
        specimenOf_of_check hindex (hchecked found hfound)⟩

/-- Everything that has an owner is of a listed one. -/
structure OwnersListed (input : DeckInput) (decoded : List (FragmentPin × IndexFragment)) :
    Prop where
  fragments : ∀ pin ∈ input.fragments, Listed input pin.owner
  anchors : ∀ d ∈ decoded, ∀ a ∈ d.2.anchors, Listed input a.owner
  indexed : ∀ d ∈ decoded, ∀ s ∈ d.2.specimens, Listed input s.owner
  certificates : ∀ cert ∈ input.certificates, Listed input cert.owner
  files : ∀ file ∈ input.files, Listed input file.owner
  excerpts : ∀ row ∈ input.excerpts, Listed input row.owner
  specimens : ∀ row ∈ input.specimens, Listed input row.owner

theorem certificates_listed (hcerts : checkCertificates contentId input index = .ok ()) :
    ∀ cert ∈ input.certificates, Listed input cert.owner := by
  intro cert hcert
  obtain ⟨_, -, hcerts⟩ := Except.bind_eq_ok_iff.mp hcerts
  obtain ⟨_, hcerts, hknown⟩ := Except.bind_eq_ok_iff.mp hcerts
  have hknown := Except.forM_eq_ok_iff.mp hknown cert hcert
  split at hknown
  · rename_i hcontains
    obtain ⟨rows, hget⟩ := SortedMap.contains_iff.mp hcontains
    have hcheck := Except.forM_eq_ok_iff.mp hcerts _ (SortedMap.get?_eq_some_iff.mp hget)
    obtain ⟨pin, anchor, only, rfl, honly, hcertified⟩ :=
      checkCertificate_ok (hindex.anchors.nonempty _ _ hget) hcheck
    have hmem : cert ∈ input.certificates.filter fun v => v.anchor = cert.anchor :=
      List.mem_filter.mpr ⟨hcert, decide_eq_true rfl⟩
    rw [honly, List.mem_singleton] at hmem
    have hanchor : (pin, anchor) ∈ (anchorRows decoded).filter fun a => a.2.id = cert.anchor :=
      hindex.anchors.eq_of_get? hget ▸ List.mem_singleton_self _
    obtain ⟨d, hd, hrow⟩ := List.mem_flatMap.mp (List.mem_filter.mp hanchor).1
    obtain ⟨a, ha, hpair⟩ := List.mem_map.mp hrow
    cases hpair
    rw [hmem, hcertified.owner, hindex.anchor_owner d hd _ ha]
    exact listed_of_decoded hdecoded hd
  · cases hknown

end

/-- Every deck that is built is grounded: one row for each query, in order, that answers it and is
backed by the input; and everything is of a listed owner. -/
theorem build_sound (h : build contentId debug input = .ok deck) :
    ∃ decoded, List.Forall₂ (DecodedFrom contentId input) input.fragments decoded ∧
      List.Forall₂ (Grounds contentId input decoded) input.queries deck.evidence ∧
      OwnersListed input decoded := by
  simp only [build, Except.bind_eq_ok_iff, Except.guard_eq_ok_iff] at h
  obtain ⟨_, -, _, -, decoded, hdecoded, index, hindex, _, hcerts, files, hfiles, _, hsources,
    excerpts, hexcerpts, specimens, hspecimens, evidence, hevidence, -, id, -, h⟩ := h
  cases h
  have hdecoded := (forall₂_of_mapM hdecoded).imp fun _ _ h => decodedFrom_of_decodeFragment h
  have hindex := indexed_of_addFragments hindex
  obtain ⟨hfile, -⟩ := Index.single_of_foldlM hfiles
  obtain ⟨hexcerpt, -⟩ := Index.single_of_foldlM hexcerpts
  obtain ⟨hspecimen, -⟩ := Index.single_of_foldlM hspecimens
  refine ⟨decoded, hdecoded, (forall₂_of_mapM hevidence).imp fun _ _ h =>
    grounds_of_answer hdecoded hindex hcerts hfiles hsources hexcerpts hspecimens h, ?_⟩
  refine ⟨?_, ?_, ?_, certificates_listed hdecoded hindex hcerts, ?_, ?_, ?_⟩
  · have hand := hdecoded.imp fun _ _ h => And.intro h.listed h
    exact ((List.forall₂_and_left _ _).mp hand).1
  · intro d hd a ha
    exact hindex.anchor_owner d hd a ha ▸ listed_of_decoded hdecoded hd
  · intro d hd s hs
    exact hindex.specimen_owner d hd s hs ▸ listed_of_decoded hdecoded hd
  · intro file hmem
    exact (checkFile_ok (hfile file hmem)).1
  · intro row hmem
    obtain ⟨file, hof⟩ := checkExcerpt_ok hfiles (hexcerpt row hmem)
    exact hof.listed
  · intro row hmem
    obtain ⟨d, hof⟩ := specimenOf_of_check hindex (hspecimen row hmem)
    exact hof.listed

end

/-! ## A deck -/

namespace Sample
open RoadmapRunner

def contentId (value : Datum) : Except String ContentId :=
  .ok (Memory.digest (Memory.serialize value))

def debug : DebugText where
  printable c := 0x20 ≤ c.toNat && c.toNat < 0x7f
  contentId id := DebugText.record "ContentId" [("algorithm", id.algorithm.display.toList),
    ("bytes", DebugText.bytes id.bytes)]

def byteId (bytes : List UInt8) : ByteContentId :=
  ⟨Memory.digest (Memory.serialize (ByteContentId.datum bytes))⟩

def certify (cert : ClaimCertificate) : ClaimCertificate :=
  { cert with digest := (cert.expectedDigest contentId).toOption.getD cert.digest }

def fragment : IndexFragment where
  owner := "owner"
  anchors := [⟨"declaration", "owner", some "src/lib.rs"⟩]
  specimens := [⟨"specimen", "owner"⟩]

def input : DeckInput where
  repositories := [⟨"owner", "https://example.invalid/owner", "abc123"⟩]
  fragments := [⟨"owner", [1, 2], byteId [1, 2]⟩]
  certificates := [certify ⟨"declaration", "owner", byteId [1, 2], byteId []⟩]
  files := [⟨"owner", "src/lib.rs", [5, 6, 7], byteId [5, 6, 7]⟩]
  excerpts := [⟨"body", "owner", "src/lib.rs", 1, 3, [6, 7]⟩]
  specimens := [⟨"specimen", "owner", [8], byteId [8]⟩]
  queries := [.anchor "declaration", .excerpt "body", .specimen "specimen"]
  limitations := [.syntaxBound "rust" "bytes, not a tree"]
  limits := ⟨1, 1, 1, 1, 1, 3, 4096⟩
  decode bytes := if bytes = [1, 2] then .ok fragment else .error (.decode "fixture")

end Sample

theorem build_sound_sample :
    ∃ deck decoded, build Sample.contentId Sample.debug Sample.input = .ok deck ∧
      List.Forall₂ (Grounds Sample.contentId Sample.input decoded) Sample.input.queries
        deck.evidence := by
  obtain ⟨deck, h⟩ := Except.exists_of_isOk
    (x := build Sample.contentId Sample.debug Sample.input) (by decide +kernel)
  obtain ⟨decoded, -, hgrounds, -⟩ := build_sound h
  exact ⟨deck, decoded, h, hgrounds⟩

end SimAgentNet.SourceDecks
