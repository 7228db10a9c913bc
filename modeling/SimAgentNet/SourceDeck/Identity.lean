import SimAgentNet.SourceDeck.DebugText
import SimAgentNet.SourceDeck.Sound

/-! # Deck identity

Which decks share an identity. The rows of repositories and files are joined at a colon, and two
decks share an identity although they differ exactly when their joined texts are split in different
ways. -/

namespace SimAgentNet.SourceDecks
open Delimited

/-! ## Rows -/

/-- Equal images up to order under a finer map are equal images up to order. -/
theorem map_perm_of_map_perm {f : α → β} {g : α → γ} {l l' : List α}
    (hf : ∀ a ∈ l, ∀ b ∈ l', f a = f b → g a = g b) (h : (l.map f).Perm (l'.map f)) :
    (l.map g).Perm (l'.map g) := by
  induction l generalizing l' with
  | nil =>
    rw [List.map_eq_nil_iff.mp h.nil_eq.symm]
  | cons a l ih =>
    obtain ⟨b, hb, hba⟩ := List.mem_map.mp (h.subset List.mem_cons_self)
    obtain ⟨s, t, rfl⟩ := List.append_of_mem hb
    have hmiddle : (s ++ b :: t).Perm (b :: (s ++ t)) := List.perm_middle
    have hrest : (l.map f).Perm ((s ++ t).map f) := by
      have hcons := h.trans (hmiddle.map f)
      rw [List.map_cons, List.map_cons, hba] at hcons
      exact hcons.cons_inv
    have htail : (l.map g).Perm ((s ++ t).map g) :=
      ih (fun x hx y hy => hf x (List.mem_cons_of_mem a hx) y
        (hmiddle.symm.subset (List.mem_cons_of_mem b hy))) hrest
    rw [List.map_cons, hf a List.mem_cons_self b hb hba.symm]
    exact (htail.cons (g b)).trans (hmiddle.map g).symm

theorem map_perm_iff {f : α → β} {g : α → γ} {l l' : List α}
    (hfg : ∀ a ∈ l, ∀ b ∈ l', f a = f b ↔ g a = g b) :
    (l.map f).Perm (l'.map f) ↔ (l.map g).Perm (l'.map g) :=
  ⟨map_perm_of_map_perm fun a ha b hb => (hfg a ha b hb).mp,
    map_perm_of_map_perm fun a ha b hb => (hfg a ha b hb).mpr⟩

theorem perm_iff_of_injective {f : α → β} {l l' : List α} (hf : Function.Injective f) :
    (l.map f).Perm (l'.map f) ↔ l.Perm l' := by
  have h : (l.map f).Perm (l'.map f) ↔ (l.map fun a => a).Perm (l'.map fun a => a) :=
    map_perm_iff fun a _ b _ => hf.eq_iff
  rwa [List.map_id', List.map_id'] at h

/-- What the key of a row begins with. -/
def kind (r : Row) : List Char := r.1.toList.take 2

theorem kind_repository (v : RepositorySnapshot) : kind (repositoryRow v) = ['r', 'e'] := by
  simp [kind, repositoryRow, String.toList_append]

theorem kind_fragment (v : FragmentPin) : kind (fragmentRow v) = ['f', 'r'] := by
  simp [kind, fragmentRow, String.toList_append]

theorem kind_file (v : SourceFile) : kind (fileRow v) = ['f', 'i'] := by
  simp [kind, fileRow, String.toList_append]

theorem kind_evidence (d : DebugText) (v : GroundedEvidence) : kind (evidenceRow d v) = ['e', 'v'] := by
  simp [kind, evidenceRow, String.toList_append]

theorem kind_limitation (d : DebugText) (v : Limitation) : kind (limitationRow d v) = ['l', 'i'] := by
  simp [kind, limitationRow, String.toList_append]

/-- The rows of a deck. -/
def SourceDeck.rows (d : DebugText) (deck : SourceDeck) : List Row :=
  SourceDecks.rows d deck.repositories deck.fragments deck.files deck.evidence deck.limitations

/-- The rows agree up to order, kind by kind. -/
structure RowsAgree (d : DebugText) (deck deck' : SourceDeck) : Prop where
  repositories : (deck.repositories.map repositoryRow).Perm (deck'.repositories.map repositoryRow)
  fragments : (deck.fragments.map fragmentRow).Perm (deck'.fragments.map fragmentRow)
  files : (deck.files.map fileRow).Perm (deck'.files.map fileRow)
  evidence : (deck.evidence.map (evidenceRow d)).Perm (deck'.evidence.map (evidenceRow d))
  limitations : (deck.limitations.map (limitationRow d)).Perm
    (deck'.limitations.map (limitationRow d))

theorem rows_perm_iff {d : DebugText} {deck deck' : SourceDeck} :
    (deck.rows d).Perm (deck'.rows d) ↔ RowsAgree d deck deck' := by
  constructor
  · intro h
    have hkind (k : List Char) := h.filter fun r => kind r = k
    simp only [SourceDeck.rows, SourceDecks.rows, List.filter_append, List.filter_map,
      Function.comp_def, kind_repository, kind_fragment, kind_file, kind_evidence,
      kind_limitation] at hkind
    exact ⟨by simpa using hkind ['r', 'e'], by simpa using hkind ['f', 'r'],
      by simpa using hkind ['f', 'i'], by simpa using hkind ['e', 'v'],
      by simpa using hkind ['l', 'i']⟩
  · intro h
    exact (((h.repositories.append h.fragments).append h.files).append h.evidence).append
      h.limitations

/-! ## Sorted rows -/

/-- Sorting forgets the order and nothing else. -/
theorem insertionSort_eq_iff {l l' : List Row} :
    l.insertionSort (fun a b => toLex a ≤ toLex b) =
      l'.insertionSort (fun a b => toLex a ≤ toLex b) ↔ l.Perm l' := by
  constructor
  · intro h
    exact (List.perm_insertionSort _ l).symm.trans (h ▸ List.perm_insertionSort _ l')
  · intro h
    have hsorted (rows : List Row) : (rows.insertionSort fun a b => toLex a ≤ toLex b).Pairwise
        fun a b => toLex a ≤ toLex b := List.pairwise_insertionSort _ rows
    have hperm := ((List.perm_insertionSort (fun a b : Row => toLex a ≤ toLex b) l).trans h).trans
      (List.perm_insertionSort (fun a b : Row => toLex a ≤ toLex b) l').symm
    exact hperm.eq_of_pairwise (fun a b _ _ hab hba => toLex.injective (le_antisymm hab hba))
      (hsorted l) (hsorted l')

theorem deckDatum_injective : Function.Injective deckDatum := by
  intro rows rows' h
  simp only [deckDatum, Datum.node.injEq, List.cons.injEq, Prod.mk.injEq, Datum.map.injEq,
    true_and, and_true] at h
  refine List.map_injective_iff.mpr (fun r r' hr => ?_) h
  cases r
  cases r'
  cases hr
  rfl

/-- The canonical datum of a deck. -/
def SourceDeck.canonical (d : DebugText) (deck : SourceDeck) : Datum :=
  SourceDecks.canonical d deck.repositories deck.fragments deck.files deck.evidence deck.limitations

theorem canonical_eq_iff {d : DebugText} {deck deck' : SourceDeck} :
    deck.canonical d = deck'.canonical d ↔ RowsAgree d deck deck' := by
  rw [← rows_perm_iff, ← insertionSort_eq_iff]
  exact deckDatum_injective.eq_iff

/-! ## Built decks -/

/-- The row answers the query with a value of the input. -/
def Answers (input : DeckInput) : SourceQuery → GroundedEvidence → Prop
  | .anchor id, .anchor row => row.id = id ∧
    ∃ pin ∈ input.fragments, ∃ fragment, input.decode pin.bytes = .ok fragment ∧
      row ∈ fragment.anchors
  | .excerpt id, .excerpt row => row.id = id ∧ row ∈ input.excerpts
  | .specimen id, .specimen row => row.id = id ∧ row ∈ input.specimens
  | _, _ => False

/-- The deck has the values of the input, with checked content ids, and its queries have one answer
each. -/
structure Built (contentId : ContentIdOf) (d : DebugText) (input : DeckInput) (deck : SourceDeck) :
    Prop where
  repositories : deck.repositories = input.repositories
  fragments : deck.fragments = input.fragments
  files : deck.files = input.files
  limitations : deck.limitations = input.limitations
  id : contentId (deck.canonical d) = .ok deck.id.content
  fragment_content : ∀ pin ∈ deck.fragments,
    ByteContentId.of contentId pin.bytes = .ok pin.contentId
  file_content : ∀ file ∈ deck.files, ByteContentId.of contentId file.bytes = .ok file.contentId
  answers : List.Forall₂ (Answers input) input.queries deck.evidence
  only : ∀ q row row', Answers input q row → Answers input q row' → row = row'

section
variable {contentId : ContentIdOf} {d : DebugText} {input : DeckInput}

theorem answers_of_grounds {decoded : List (FragmentPin × IndexFragment)}
    (hdecoded : List.Forall₂ (DecodedFrom contentId input) input.fragments decoded)
    (h : Grounds contentId input decoded q row) : Answers input q row := by
  cases q with
  | anchor id =>
    cases row with
    | anchor row =>
      obtain ⟨hid, x, cert, hrow⟩ := h
      have hx : x ∈ decoded.filter fun x => x.2.anchors.any fun a => a.id = row.id :=
        hrow.only ▸ List.mem_singleton_self x
      obtain ⟨pin, hpin, hfrom⟩ := exists_left_of_forall₂ hdecoded (List.mem_filter.mp hx).1
      have hmem : row ∈ x.2.anchors.filter fun a => a.id = row.id :=
        hrow.once ▸ List.mem_singleton_self row
      exact ⟨hid, pin, hpin, x.2, hfrom.decode, (List.mem_filter.mp hmem).1⟩
    | excerpt row => exact h
    | specimen row => exact h
  | excerpt id =>
    cases row with
    | anchor row => exact h
    | excerpt row => exact ⟨h.1, h.2.1⟩
    | specimen row => exact h
  | specimen id =>
    cases row with
    | anchor row => exact h
    | excerpt row => exact h
    | specimen row => exact ⟨h.1, h.2.1⟩

/-- The answer to an anchor is of a decoded fragment. -/
theorem anchor_decoded {id : String} {decoded : List (FragmentPin × IndexFragment)}
    (hdecoded : List.Forall₂ (DecodedFrom contentId input) input.fragments decoded)
    (h : Answers input (.anchor id) (.anchor row)) :
    row.id = id ∧ ∃ x ∈ decoded, row ∈ x.2.anchors := by
  obtain ⟨hid, pin, hpin, fragment, hdecode, hrow⟩ := h
  obtain ⟨x, hx, hfrom⟩ := exists_left_of_forall₂ hdecoded.flip hpin
  have heq : x.2 = fragment := Except.ok.inj (hfrom.decode.symm.trans hdecode)
  exact ⟨hid, x, hx, heq ▸ hrow⟩

/-- Every anchor that the fragments hold has an id of its own. -/
theorem anchors_only {decoded : List (FragmentPin × IndexFragment)} {index : FragmentIndex}
    {x x' : FragmentPin × IndexFragment} {row row' : IndexAnchor} (hindex : Indexed decoded index)
    (hcerts : checkCertificates contentId input index = .ok ()) (hx : x ∈ decoded)
    (hrow : row ∈ x.2.anchors) (hx' : x' ∈ decoded) (hrow' : row' ∈ x'.2.anchors)
    (hid : row.id = row'.id) : row = row' := by
  obtain ⟨_, -, hcerts⟩ := Except.bind_eq_ok_iff.mp hcerts
  obtain ⟨_, hcerts, -⟩ := Except.bind_eq_ok_iff.mp hcerts
  have hmem {y : FragmentPin × IndexFragment} {r : IndexAnchor} (hy : y ∈ decoded)
      (hr : r ∈ y.2.anchors) : (y.1, r) ∈ (anchorRows decoded).filter fun a => a.2.id = r.id :=
    List.mem_filter.mpr ⟨List.mem_flatMap.mpr ⟨y, hy, List.mem_map_of_mem hr⟩, decide_eq_true rfl⟩
  obtain ⟨g, hg⟩ := SortedMap.contains_iff.mp
    (hindex.anchors.contains_iff.mpr ⟨_, (List.mem_filter.mp (hmem hx hrow)).1, rfl⟩)
  obtain ⟨pin, anchor, -, honly, -, -⟩ := checkCertificate_ok (hindex.anchors.nonempty _ _ hg)
    (Except.forM_eq_ok_iff.mp hcerts _ (SortedMap.get?_eq_some_iff.mp hg))
  have hgroup := hindex.anchors.eq_of_get? hg
  have heq := hmem hx hrow
  have heq' := hid ▸ hmem hx' hrow'
  rw [hgroup, honly, List.mem_singleton] at heq heq'
  exact (Prod.mk.inj heq).2.trans (Prod.mk.inj heq').2.symm

theorem built_of_build (h : build contentId d input = .ok deck) : Built contentId d input deck := by
  obtain ⟨decoded, hdecoded, hgrounds, -⟩ := build_sound h
  have hanswers := hgrounds.imp fun _ _ h => answers_of_grounds hdecoded h
  simp only [build, Except.bind_eq_ok_iff, Except.guard_eq_ok_iff] at h
  obtain ⟨_, -, _, -, decoded, hdecoded, index, hindex, _, hcerts, files, hfiles, _, -,
    excerpts, hexcerpts, specimens, hspecimens, evidence, -, -, id, hid, h⟩ := h
  cases h
  have hdecoded := (forall₂_of_mapM hdecoded).imp fun _ _ h => decodedFrom_of_decodeFragment h
  have hindex := indexed_of_addFragments hindex
  obtain ⟨hfile, -⟩ := Index.single_of_foldlM hfiles
  obtain ⟨-, hexcerpt⟩ := Index.single_of_foldlM hexcerpts
  obtain ⟨-, hspecimen⟩ := Index.single_of_foldlM hspecimens
  refine ⟨rfl, rfl, rfl, rfl, ?_, ?_, fun file hmem => (checkFile_ok (hfile file hmem)).2, hanswers,
    ?_⟩
  · cases hdatum : contentId (SourceDecks.canonical d input.repositories input.fragments input.files
        evidence input.limitations) with
    | error e =>
      rw [hdatum] at hid
      cases hid
    | ok id' =>
      rw [hdatum] at hid
      cases hid
      exact hdatum
  · intro pin hpin
    obtain ⟨x, -, hx⟩ := exists_left_of_forall₂ hdecoded.flip hpin
    exact hx.content
  · intro q row row' hrow hrow'
    cases q with
    | anchor id =>
      cases row with
      | anchor row =>
        cases row' with
        | anchor row' =>
          obtain ⟨hid, x, hx, hmem⟩ := anchor_decoded hdecoded hrow
          obtain ⟨hid', x', hx', hmem'⟩ := anchor_decoded hdecoded hrow'
          rw [anchors_only hindex hcerts hx hmem hx' hmem' (hid.trans hid'.symm)]
        | excerpt row' => cases hrow'
        | specimen row' => cases hrow'
      | excerpt row => cases hrow
      | specimen row => cases hrow
    | excerpt id =>
      cases row with
      | excerpt row =>
        cases row' with
        | excerpt row' => rw [hexcerpt.only hrow.2 hrow'.2 (hrow.1.trans hrow'.1.symm)]
        | anchor row' => cases hrow'
        | specimen row' => cases hrow'
      | anchor row => cases hrow
      | specimen row => cases hrow
    | specimen id =>
      cases row with
      | specimen row =>
        cases row' with
        | specimen row' => rw [hspecimen.only hrow.2 hrow'.2 (hrow.1.trans hrow'.1.symm)]
        | anchor row' => cases hrow'
        | excerpt row' => cases hrow'
      | anchor row => cases hrow
      | excerpt row => cases hrow

end

/-! ## Same decks -/

/-- What a deck names of a fragment. -/
def FragmentPin.identity (v : FragmentPin) : String × ByteContentId := (v.owner, v.contentId)

/-- What a deck names of a file. -/
def SourceFile.identity (v : SourceFile) : String × String × ByteContentId :=
  (v.owner, v.path, v.contentId)

/-- The decks have the same repositories, fragments, files, evidence and limitations, up to order. -/
structure SameDeck (deck deck' : SourceDeck) : Prop where
  repositories : deck.repositories.Perm deck'.repositories
  fragments : (deck.fragments.map (·.identity)).Perm (deck'.fragments.map (·.identity))
  files : (deck.files.map (·.identity)).Perm (deck'.files.map (·.identity))
  evidence : deck.evidence.Perm deck'.evidence
  limitations : deck.limitations.Perm deck'.limitations

/-- A repository with its name and revision joined. -/
def RepositorySnapshot.joined (v : RepositorySnapshot) : String × String :=
  (v.owner, v.repository ++ ":" ++ v.revision)

/-- A file with its owner and path joined. -/
def SourceFile.joined (v : SourceFile) : String × ByteContentId :=
  (v.owner ++ ":" ++ v.path, v.contentId)

/-- The inputs agree once repositories and files are joined, and split the joined texts in different
ways. -/
structure Resplit (input input' : DeckInput) : Prop where
  repositories : (input.repositories.map (·.joined)).Perm (input'.repositories.map (·.joined))
  fragments : (input.fragments.map (·.identity)).Perm (input'.fragments.map (·.identity))
  files : (input.files.map (·.joined)).Perm (input'.files.map (·.joined))
  answers : ∃ rows rows', List.Forall₂ (Answers input) input.queries rows ∧
    List.Forall₂ (Answers input') input'.queries rows' ∧ rows.Perm rows'
  limitations : input.limitations.Perm input'.limitations
  split : ¬(input.repositories.Perm input'.repositories ∧
    (input.files.map (·.identity)).Perm (input'.files.map (·.identity)))

section
variable {contentId : ContentIdOf} {d : DebugText} {input input' : DeckInput}
  {deck deck' : SourceDeck} {algorithm : Symbol}

theorem cidText_inj {a b : ContentId} (halg : a.algorithm = b.algorithm)
    (h : cidText a = cidText b) : a = b := by
  rw [cidText, cidText, halg, String.append_right_inj] at h
  have hbytes := Text.hex_injective h
  obtain ⟨_, _, _⟩ := a
  obtain ⟨_, _, _⟩ := b
  cases halg
  cases hbytes
  rfl

theorem algorithm_of_of {id : ByteContentId}
    (halg : ∀ datum id, contentId datum = .ok id → id.algorithm = algorithm)
    (h : ByteContentId.of contentId bytes = .ok id) : id.content.algorithm = algorithm := by
  unfold ByteContentId.of at h
  cases hdatum : contentId (ByteContentId.datum bytes) with
  | error e =>
    rw [hdatum] at h
    cases h
  | ok id' =>
    rw [hdatum] at h
    cases h
    exact halg _ _ hdatum

theorem cidText_byte_inj (halg : ∀ datum id, contentId datum = .ok id → id.algorithm = algorithm)
    {a b : ByteContentId} (ha : ByteContentId.of contentId bytes = .ok a)
    (hb : ByteContentId.of contentId bytes' = .ok b)
    (h : cidText a.content = cidText b.content) : a = b := by
  have hcontent := cidText_inj ((algorithm_of_of halg ha).trans (algorithm_of_of halg hb).symm) h
  cases a
  cases b
  cases hcontent
  rfl

/-- The rows agree when the decks do, but for the joined texts. -/
theorem rowsAgree_iff (hd : d.Lawful)
    (halg : ∀ datum id, contentId datum = .ok id → id.algorithm = algorithm)
    (hdeck : Built contentId d input deck) (hdeck' : Built contentId d input' deck') :
    RowsAgree d deck deck' ↔
      (deck.repositories.map (·.joined)).Perm (deck'.repositories.map (·.joined)) ∧
      (deck.fragments.map (·.identity)).Perm (deck'.fragments.map (·.identity)) ∧
      (deck.files.map (·.joined)).Perm (deck'.files.map (·.joined)) ∧
      deck.evidence.Perm deck'.evidence ∧ deck.limitations.Perm deck'.limitations := by
  have hrepos : (deck.repositories.map repositoryRow).Perm (deck'.repositories.map repositoryRow) ↔
      (deck.repositories.map (·.joined)).Perm (deck'.repositories.map (·.joined)) := by
    refine map_perm_iff fun a _ b _ => ?_
    rw [repositoryRow, repositoryRow, RepositorySnapshot.joined, RepositorySnapshot.joined,
      Prod.mk.injEq, Prod.mk.injEq, String.append_right_inj]
  have hfragments : (deck.fragments.map fragmentRow).Perm (deck'.fragments.map fragmentRow) ↔
      (deck.fragments.map (·.identity)).Perm (deck'.fragments.map (·.identity)) := by
    refine map_perm_iff fun a ha b hb => ?_
    rw [fragmentRow, fragmentRow, FragmentPin.identity, FragmentPin.identity, Prod.mk.injEq,
      Prod.mk.injEq, String.append_right_inj]
    refine and_congr_right fun _ => ⟨?_, fun h => by rw [h]⟩
    exact cidText_byte_inj halg (hdeck.fragment_content a ha) (hdeck'.fragment_content b hb)
  have hfiles : (deck.files.map fileRow).Perm (deck'.files.map fileRow) ↔
      (deck.files.map (·.joined)).Perm (deck'.files.map (·.joined)) := by
    refine map_perm_iff fun a ha b hb => ?_
    rw [fileRow, fileRow, SourceFile.joined, SourceFile.joined, Prod.mk.injEq, Prod.mk.injEq,
      String.append_assoc, String.append_assoc, String.append_assoc, String.append_assoc,
      String.append_right_inj, ← String.append_assoc, ← String.append_assoc]
    refine and_congr_right fun _ => ⟨?_, fun h => by rw [h]⟩
    exact cidText_byte_inj halg (hdeck.file_content a ha) (hdeck'.file_content b hb)
  have hevidence : (deck.evidence.map (evidenceRow d)).Perm (deck'.evidence.map (evidenceRow d)) ↔
      deck.evidence.Perm deck'.evidence :=
    perm_iff_of_injective fun a b h =>
      DebugText.evidence_injective hd (String.ofList_injective (Prod.mk.inj h).2)
  have hlimitations : (deck.limitations.map (limitationRow d)).Perm
      (deck'.limitations.map (limitationRow d)) ↔ deck.limitations.Perm deck'.limitations :=
    perm_iff_of_injective fun a b h =>
      DebugText.limitation_injective (String.ofList_injective (Prod.mk.inj h).2)
  constructor
  · intro h
    exact ⟨hrepos.mp h.repositories, hfragments.mp h.fragments, hfiles.mp h.files,
      hevidence.mp h.evidence, hlimitations.mp h.limitations⟩
  · rintro ⟨h₁, h₂, h₃, h₄, h₅⟩
    exact ⟨hrepos.mpr h₁, hfragments.mpr h₂, hfiles.mpr h₃, hevidence.mpr h₄, hlimitations.mpr h₅⟩

/-- Two decks have one id when their rows agree. -/
theorem id_eq_iff (hdeck : Built contentId d input deck) (hdeck' : Built contentId d input' deck')
    (hinj : contentId (deck.canonical d) = contentId (deck'.canonical d) →
      deck.canonical d = deck'.canonical d) :
    deck.id = deck'.id ↔ RowsAgree d deck deck' := by
  rw [← canonical_eq_iff]
  constructor
  · intro h
    exact hinj (by rw [hdeck.id, hdeck'.id, h])
  · intro h
    have hid := hdeck.id.symm.trans ((congrArg contentId h).trans hdeck'.id)
    obtain ⟨⟨_⟩, _⟩ := deck
    obtain ⟨⟨_⟩, _⟩ := deck'
    cases hid
    rfl

theorem answers_eq {rows : List GroundedEvidence} (hdeck : Built contentId d input deck)
    (hrows : List.Forall₂ (Answers input) input.queries rows) : rows = deck.evidence := by
  have hanswers := hdeck.answers
  generalize deck.evidence = evidence at hanswers ⊢
  generalize input.queries = queries at hrows hanswers
  induction hrows generalizing evidence with
  | nil =>
    cases hanswers
    rfl
  | cons hrow _ ih =>
    cases hanswers with
    | cons hrow' hrest => rw [hdeck.only _ _ _ hrow hrow', ih _ hrest]

theorem resplit_iff (hdeck : Built contentId d input deck)
    (hdeck' : Built contentId d input' deck') :
    Resplit input input' ↔
      ((deck.repositories.map (·.joined)).Perm (deck'.repositories.map (·.joined)) ∧
        (deck.fragments.map (·.identity)).Perm (deck'.fragments.map (·.identity)) ∧
        (deck.files.map (·.joined)).Perm (deck'.files.map (·.joined)) ∧
        deck.evidence.Perm deck'.evidence ∧ deck.limitations.Perm deck'.limitations) ∧
      ¬(deck.repositories.Perm deck'.repositories ∧
        (deck.files.map (·.identity)).Perm (deck'.files.map (·.identity))) := by
  rw [hdeck.repositories, hdeck.fragments, hdeck.files, hdeck.limitations, hdeck'.repositories,
    hdeck'.fragments, hdeck'.files, hdeck'.limitations]
  constructor
  · intro h
    obtain ⟨rows, rows', hrows, hrows', hperm⟩ := h.answers
    rw [answers_eq hdeck hrows, answers_eq hdeck' hrows'] at hperm
    exact ⟨⟨h.repositories, h.fragments, h.files, hperm, h.limitations⟩, h.split⟩
  · rintro ⟨⟨hrepositories, hfragments, hfiles, hevidence, hlimitations⟩, hsplit⟩
    exact ⟨hrepositories, hfragments, hfiles,
      ⟨_, _, hdeck.answers, hdeck'.answers, hevidence⟩, hlimitations, hsplit⟩

theorem SameDeck.joined (h : SameDeck deck deck') :
    (deck.repositories.map (·.joined)).Perm (deck'.repositories.map (·.joined)) ∧
      (deck.files.map (·.joined)).Perm (deck'.files.map (·.joined)) := by
  refine ⟨h.repositories.map _, map_perm_of_map_perm (fun a _ b _ hab => ?_) h.files⟩
  obtain ⟨howner, hpath, hcontent⟩ : a.owner = b.owner ∧ a.path = b.path ∧
      a.contentId = b.contentId := by
    simpa [SourceFile.identity] using hab
  rw [SourceFile.joined, SourceFile.joined, howner, hpath, hcontent]

/-- Deck identity is exact for two inputs when the one does not split the joined texts of the other
in another way. -/
theorem id_exact_iff (h : build contentId d input = .ok deck)
    (h' : build contentId d input' = .ok deck') (hd : d.Lawful)
    (halg : ∀ datum id, contentId datum = .ok id → id.algorithm = algorithm)
    (hinj : contentId (deck.canonical d) = contentId (deck'.canonical d) →
      deck.canonical d = deck'.canonical d) :
    (deck.id = deck'.id ↔ SameDeck deck deck') ↔ ¬Resplit input input' := by
  have hdeck := built_of_build h
  have hdeck' := built_of_build h'
  rw [id_eq_iff hdeck hdeck' hinj, rowsAgree_iff hd halg hdeck hdeck', resplit_iff hdeck hdeck']
  constructor
  · rintro hexact ⟨hagree, hsplit⟩
    have hsame := hexact.mp hagree
    exact hsplit ⟨hsame.repositories, hsame.files⟩
  · intro hsplit
    constructor
    · intro hagree
      obtain ⟨hrepositories, hfiles⟩ := not_not.mp fun hne => hsplit ⟨hagree, hne⟩
      obtain ⟨-, hfragments, -, hevidence, hlimitations⟩ := hagree
      exact ⟨hrepositories, hfragments, hfiles, hevidence, hlimitations⟩
    · intro hsame
      exact ⟨hsame.joined.1, hsame.fragments, hsame.joined.2, hsame.evidence, hsame.limitations⟩

theorem colon_inj {s t r r' : String} (hs : ':' ∉ s.toList) (ht : ':' ∉ t.toList)
    (h : s ++ ":" ++ r = t ++ ":" ++ r') : s = t ∧ r = r' := by
  have hcons : s.toList ++ ':' :: r.toList = t.toList ++ ':' :: r'.toList := by
    simpa [String.toList_append] using congrArg String.toList h
  have hne {u : String} (hu : ':' ∉ u.toList) : ∀ c ∈ u.toList, (c != ':') = true := by
    intro c hc
    exact bne_iff_ne.mpr fun heq => hu (heq ▸ hc)
  obtain ⟨hst, hr⟩ := append_stop_inj (hne hs) (hne ht) (by decide) (by decide) hcons
  exact ⟨String.toList_injective hst, String.toList_injective (List.cons.inj hr).2⟩

/-- Joined texts split in one way when no colon occurs before the one that joins them. -/
theorem not_resplit
    (hrepositories : ∀ v ∈ input.repositories ++ input'.repositories, ':' ∉ v.repository.toList)
    (hfiles : ∀ v ∈ input.files ++ input'.files, ':' ∉ v.owner.toList) : ¬Resplit input input' := by
  intro h
  refine h.split ⟨?_, map_perm_of_map_perm (fun a ha b hb hab => ?_) h.files⟩
  · have hperm := map_perm_of_map_perm (g := fun v => v) (fun a ha b hb hab => ?_) h.repositories
    · rwa [List.map_id', List.map_id'] at hperm
    · obtain ⟨howner, htext⟩ := Prod.mk.inj hab
      obtain ⟨hrepository, hrevision⟩ := colon_inj
        (hrepositories a (List.mem_append_left _ ha)) (hrepositories b (List.mem_append_right _ hb))
        htext
      cases a
      cases b
      cases howner
      cases hrepository
      cases hrevision
      rfl
  · obtain ⟨htext, hcontent⟩ := Prod.mk.inj hab
    obtain ⟨howner, hpath⟩ := colon_inj (hfiles a (List.mem_append_left _ ha))
      (hfiles b (List.mem_append_right _ hb)) htext
    rw [SourceFile.identity, SourceFile.identity, howner, hpath, hcontent]

end

/-! ## Two splits of one text -/

namespace IdentitySample

def printable (c : Char) : Bool := 0x20 ≤ c.toNat && c.toNat < 0x7f

def bare : DebugText := ⟨printable, fun _ => []⟩

/-- Derived texts of a content id and its algorithm. -/
def debug : DebugText where
  printable
  contentId id := DebugText.record "ContentId" [
    ("algorithm", DebugText.record "Symbol" [("namespace", bare.option id.algorithm.ns),
      ("name", bare.string id.algorithm.name)]),
    ("bytes", DebugText.bytes id.bytes)]

theorem debug_lawful : debug.Lawful := by
  intro a b r r' h
  simp only [debug, DebugText.record_cons, List.flatMap_cons, List.flatMap_nil, List.append_assoc,
    List.append_nil, List.append_cancel_left_eq] at h
  obtain ⟨hns, h⟩ := bare.option_ends _ _ _ _ h
  simp only [List.append_cancel_left_eq] at h
  obtain ⟨hname, h⟩ := bare.string_ends _ _ _ _ h
  simp only [List.append_cancel_left_eq] at h
  obtain ⟨hbytes, h⟩ := DebugText.bytes_ends _ _ _ _ h
  obtain ⟨⟨_, _⟩, _, _⟩ := a
  obtain ⟨⟨_, _⟩, _, _⟩ := b
  cases hns
  cases hname
  cases hbytes
  simp only [List.append_cancel_left_eq] at h
  exact ⟨rfl, h⟩

theorem algorithm_eq (datum : Datum) (id : ContentId) (h : Sample.contentId datum = .ok id) :
    id.algorithm = .qualified "core" "digest-v1" := by
  cases h
  rfl

/-- One repository and nothing else. -/
def input (repository revision : String) : DeckInput where
  repositories := [⟨"owner", repository, revision⟩]
  fragments := []
  certificates := []
  files := []
  excerpts := []
  specimens := []
  queries := []
  limitations := []
  limits := ⟨1, 0, 0, 0, 0, 0, 0⟩
  decode _ := .error (.decode "no fragment")

end IdentitySample

/-- Deck identity is exact for an input and the same input with its queries reversed. -/
theorem id_exact_iff_reversed :
    let reversed := { Sample.input with queries := Sample.input.queries.reverse }
    ∃ deck deck', build Sample.contentId IdentitySample.debug Sample.input = .ok deck ∧
      build Sample.contentId IdentitySample.debug reversed = .ok deck' ∧
      ((deck.id = deck'.id ↔ SameDeck deck deck') ↔ ¬Resplit Sample.input reversed) := by
  intro reversed
  obtain ⟨deck, h⟩ := Except.exists_of_isOk
    (x := build Sample.contentId IdentitySample.debug Sample.input) (by decide +kernel)
  obtain ⟨deck', h'⟩ := Except.exists_of_isOk
    (x := build Sample.contentId IdentitySample.debug reversed) (by decide +kernel)
  -- the rows of the second deck are those of the first, the evidence reversed
  have hevidence : (build Sample.contentId IdentitySample.debug Sample.input).toOption.map
        (·.evidence) =
      (build Sample.contentId IdentitySample.debug reversed).toOption.map (·.evidence.reverse) := by
    decide +kernel
  rw [h, h'] at hevidence
  have hdeck := built_of_build h
  have hdeck' := built_of_build h'
  have hagree : RowsAgree IdentitySample.debug deck deck' := by
    constructor
    · rw [hdeck.repositories, hdeck'.repositories]
    · rw [hdeck.fragments, hdeck'.fragments]
    · rw [hdeck.files, hdeck'.files]
    · rw [show deck.evidence = deck'.evidence.reverse from Option.some.inj hevidence]
      exact (List.reverse_perm _).map _
    · rw [hdeck.limitations, hdeck'.limitations]
  exact ⟨deck, deck', h, h', id_exact_iff h h' IdentitySample.debug_lawful
    IdentitySample.algorithm_eq fun _ => canonical_eq_iff.mpr hagree⟩

/-- Two decks of different repositories have one canonical datum, and so one id. -/
theorem id_shared :
    ∃ deck deck',
      build Sample.contentId IdentitySample.debug
        (IdentitySample.input "https://example.invalid" "8080:abc123") = .ok deck ∧
      build Sample.contentId IdentitySample.debug
        (IdentitySample.input "https://example.invalid:8080" "abc123") = .ok deck' ∧
      deck.canonical IdentitySample.debug = deck'.canonical IdentitySample.debug ∧
      deck.id = deck'.id ∧ ¬SameDeck deck deck' := by
  refine ⟨_, _, rfl, rfl, by decide +kernel, by decide +kernel, fun h => ?_⟩
  exact absurd h.repositories (by decide +kernel)

end SimAgentNet.SourceDecks
