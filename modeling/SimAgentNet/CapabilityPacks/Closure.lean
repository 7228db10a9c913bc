import SimAgentNet.Data.PostOrder
import SimAgentNet.CapabilityPacks.Resolve

/-! # The closure of a capability pack

A walk that succeeds lists the packs in post-order. Ids are finitely many and the stack has none
of them twice, so every walk ends; `resolve_closure` says how. -/

namespace SimAgentNet.CapabilityPacks
variable {Mode : Type}

section
variable (fields : Fields Mode) (dir : PackDir Mode)

/-- The pack imports the other one. -/
def ImportsPack (a b : ContentId) : Prop := b ∈ (declared fields dir a).map (·.1)

end

/-! ## Accepted walks -/

section
variable {fields : Fields Mode} {dir : PackDir Mode} {id : ContentId} {p q : Progress Mode}

theorem importsPack_iff (h : lookupPack dir id = .ok pack)
    (hi : pack.typedImports fields = .ok imports) :
    ImportsPack fields dir id b ↔ ∃ i ∈ imports, i.content = b := by
  rw [ImportsPack, lookupPack_spec h hi, List.map_map, List.mem_map]
  rfl

/-- The ids of the packs that are finished. -/
def Progress.ids (p : Progress Mode) : List ContentId := p.packs.map (·.1)

variable (fields dir) in
/-- The finished packs are in post-order, and the aliases of their imports are bound. -/
structure Finished (p : Progress Mode) : Prop where
  order : PostOrder (ImportsPack fields dir) p.ids
  done : ∀ a, a ∈ p.done ↔ a ∈ p.ids
  found : ∀ e ∈ p.packs, lookupPack dir e.1 = .ok e.2
  bound : ∀ e ∈ p.packs, ∀ imports, e.2.typedImports fields = .ok imports →
    ∀ i ∈ imports, p.aliases.get? i.aliasName = some i.content

theorem Finished.init : Finished fields dir .init :=
  ⟨.nil, fun _ => iff_of_false nofun nofun, nofun, nofun⟩

variable (fields dir) in
/-- What an accepted walk does: it finishes packs of `below` that are not on the stack, and keeps
the aliases that are bound. -/
structure Extends (stack : List ContentId) (below : ContentId → Prop) (p q : Progress Mode) :
    Prop where
  finished : Finished fields dir q
  packs : ∃ new, q.packs = p.packs ++ new ∧ ∀ e ∈ new, e.1 ∉ stack ∧ below e.1
  aliases : ∀ name content, p.aliases.get? name = some content →
    q.aliases.get? name = some content

namespace Extends
variable {stack : List ContentId} {below below' : ContentId → Prop} {r : Progress Mode}

theorem refl (h : Finished fields dir p) : Extends fields dir stack below p p :=
  ⟨h, ⟨[], (List.append_nil _).symm, nofun⟩, fun _ _ h => h⟩

theorem trans (h : Extends fields dir stack below p q) (h' : Extends fields dir stack below q r) :
    Extends fields dir stack below p r := by
  obtain ⟨new, hq, hnew⟩ := h.packs
  obtain ⟨new', hr, hnew'⟩ := h'.packs
  refine ⟨h'.finished, ⟨new ++ new', ?_, ?_⟩, fun name content hname => ?_⟩
  · rw [hr, hq, List.append_assoc]
  · intro e he
    exact (List.mem_append.mp he).elim (hnew e) (hnew' e)
  · exact h'.aliases name content (h.aliases name content hname)

theorem mono (h : Extends fields dir stack below p q) (hbelow : ∀ a, below a → below' a) :
    Extends fields dir stack below' p q := by
  obtain ⟨new, hq, hnew⟩ := h.packs
  exact ⟨h.finished, ⟨new, hq, fun e he => ⟨(hnew e he).1, hbelow _ (hnew e he).2⟩⟩, h.aliases⟩

theorem mem_done (h : Extends fields dir stack below p q) (hp : Finished fields dir p)
    (ha : a ∈ p.done) : a ∈ q.done := by
  obtain ⟨new, hq, -⟩ := h.packs
  rw [h.finished.done, Progress.ids, hq, List.map_append]
  exact List.mem_append_left _ ((hp.done a).mp ha)

theorem not_mem_done (h : Extends fields dir stack below p q) (hp : Finished fields dir p)
    (hs : ∀ a ∈ stack, a ∉ p.done) : ∀ a ∈ stack, a ∉ q.done := by
  obtain ⟨new, hq, hnew⟩ := h.packs
  intro a ha hdone
  rw [h.finished.done, Progress.ids, hq, List.map_append] at hdone
  obtain hdone | hdone := List.mem_append.mp hdone
  · exact hs a ha ((hp.done a).mpr hdone)
  · obtain ⟨e, he, rfl⟩ := List.mem_map.mp hdone
    exact (hnew e he).1 ha

/-- An alias may be bound again to the same content. -/
theorem bind_alias {imp : Import} (hp : Finished fields dir p)
    (hsame : ¬(p.aliases.get? imp.aliasName).any (· ≠ imp.content)) :
    Extends fields dir stack below p
      { p with aliases := p.aliases.insert imp.aliasName imp.content } := by
  have hkeeps : ∀ name content, p.aliases.get? name = some content →
      (p.aliases.insert imp.aliasName imp.content).get? name = some content := by
    intro name content hname
    rw [SortedMap.get?_insert]
    by_cases heq : name = imp.aliasName
    · rw [heq] at hname
      rw [hname, Option.any_some, decide_eq_true_iff, not_not] at hsame
      rw [if_pos heq, hsame]
    · rw [if_neg heq, hname]
  refine ⟨⟨hp.order, hp.done, hp.found, ?_⟩, ⟨[], (List.append_nil _).symm, nofun⟩, hkeeps⟩
  intro e he imports himports i hi
  exact hkeeps _ _ (hp.bound e he imports himports i hi)

end Extends

/-- What is reached from a pack through imports. -/
abbrev Reachable (fields : Fields Mode) (dir : PackDir Mode) : ContentId → ContentId → Prop :=
  Relation.ReflTransGen (ImportsPack fields dir)

variable (fields dir) in
/-- A call that succeeds finishes its pack and packs that are reached from it. -/
def Finishes (visit : ContentId → SortedSet Symbol → Progress Mode → Visit (Progress Mode))
    (stack : List ContentId) : Prop :=
  ∀ id c p q, Finished fields dir p → (∀ a ∈ stack, a ∉ p.done) → visit id c p = .ok q →
    Extends fields dir stack (Reachable fields dir id) p q ∧ id ∈ q.done

/-- The loop over the imports of a pack. -/
theorem Finishes.loop
    {visit : ContentId → SortedSet Symbol → Progress Mode → Visit (Progress Mode)}
    {imports : List Import} (hv : Finishes fields dir visit stack) (hp : Finished fields dir p)
    (hs : ∀ a ∈ stack, a ∉ p.done) (h : imports.foldlM (visitImport visit c) p = .ok q) :
    Extends fields dir stack (fun a => ∃ i ∈ imports, Reachable fields dir i.content a) p q ∧
      ∀ i ∈ imports, i.content ∈ q.done ∧ q.aliases.get? i.aliasName = some i.content := by
  induction imports generalizing p with
  | nil =>
    cases h
    exact ⟨.refl hp, nofun⟩
  | cons imp imports ih =>
    obtain ⟨u, hu, h⟩ := Run.foldlM_cons_eq_ok_iff.mp h
    obtain ⟨hsame, hu⟩ := Except.guard_eq_ok_iff.mp hu
    have hbind : Extends fields dir stack
        (fun a => ∃ i ∈ imp :: imports, Reachable fields dir i.content a) p _ :=
      .bind_alias hp hsame
    obtain ⟨hstep, hdone⟩ := hv _ _ _ _ hbind.finished hs hu
    obtain ⟨hrest, hall⟩ := ih hstep.finished (hstep.not_mem_done hbind.finished hs) h
    refine ⟨(hbind.trans (hstep.mono fun a ha => ⟨imp, List.mem_cons_self, ha⟩)).trans
      (hrest.mono fun a => ?_), ?_⟩
    · rintro ⟨i, hi, ha⟩
      exact ⟨i, List.mem_cons_of_mem _ hi, ha⟩
    · refine List.forall_mem_cons.mpr ⟨⟨hrest.mem_done hstep.finished hdone, ?_⟩, hall⟩
      refine hrest.aliases _ _ (hstep.aliases _ _ ?_)
      exact SortedMap.get?_insert_self _ _ _

theorem revisit_extends (hp : Finished fields dir p) (h : revisit id c p = .ok q) :
    Extends fields dir stack below p q ∧ q.done = p.done := by
  unfold revisit at h
  cases hprior : p.ceilings.get? id with
  | none =>
    rw [hprior] at h
    cases h
  | some prior =>
    rw [hprior] at h
    cases h
    exact ⟨⟨⟨hp.order, hp.done, hp.found, hp.bound⟩, ⟨[], (List.append_nil _).symm, nofun⟩,
      fun _ _ h => h⟩, rfl⟩

/-- Finishing a pack after all its imports. -/
theorem Finished.concat (hq : Finished fields dir q) (hnew : id ∉ q.done)
    (hpack : lookupPack dir id = .ok pack) (himports : pack.typedImports fields = .ok imports)
    (hall : ∀ i ∈ imports, i.content ∈ q.done ∧ q.aliases.get? i.aliasName = some i.content)
    (ceilings : SortedMap ContentId (SortedSet Symbol)) :
    Finished fields dir ⟨q.done.insert id, q.aliases, q.packs ++ [(id, pack)], ceilings⟩ := by
  refine ⟨?_, ?_, ?_, ?_⟩
  · rw [Progress.ids, List.map_append]
    refine .concat hq.order (fun hid => hnew ((hq.done id).mpr hid)) fun b hb => ?_
    obtain ⟨i, hi, rfl⟩ := (importsPack_iff hpack himports).mp hb
    exact (hq.done _).mp (hall i hi).1
  · intro a
    rw [SortedSet.mem_insert, hq.done, Progress.ids, Progress.ids, List.map_append, List.mem_append,
      List.map_singleton, List.mem_singleton, or_comm]
  · intro e he
    obtain he | he := List.mem_append.mp he
    · exact hq.found e he
    · cases List.mem_singleton.mp he
      exact hpack
  · intro e he imports' himports' i hi
    obtain he | he := List.mem_append.mp he
    · exact hq.bound e he imports' himports' i hi
    · cases List.mem_singleton.mp he
      cases himports.symm.trans himports'
      exact (hall i hi).2

theorem visit_finishes (depth : Nat) (stack : List ContentId) :
    Finishes fields dir (fun id c p => visit fields dir depth id c stack p) stack := by
  induction depth generalizing stack with
  | zero =>
    intro id c p q _ _ h
    cases h
  | succ depth ih =>
    intro id c p q hp hs h
    simp only [visit, Except.guard_eq_ok_iff] at h
    obtain ⟨hstack, h⟩ := h
    by_cases hdone : id ∈ p.done
    · rw [if_pos hdone] at h
      obtain ⟨hextends, heq⟩ := revisit_extends hp h
      exact ⟨hextends, heq ▸ hdone⟩
    · rw [if_neg hdone] at h
      simp only [Except.bind_eq_ok_iff, Except.mapError_eq_ok_iff] at h
      obtain ⟨pack, hpack, imports, himports, u, hu, h⟩ := h
      cases h
      have hs' : ∀ a ∈ stack ++ [id], a ∉ p.done := by
        intro a hmem
        obtain hmem | hmem := List.mem_append.mp hmem
        · exact hs a hmem
        · rwa [List.mem_singleton.mp hmem]
      obtain ⟨hextends, hall⟩ := Finishes.loop (ih (stack ++ [id])) hp hs' hu
      have hnew : id ∉ u.done := hextends.not_mem_done hp hs' id (by simp)
      refine ⟨⟨hextends.finished.concat hnew hpack himports hall _, ?_, hextends.aliases⟩,
        SortedSet.mem_insert.mpr (.inl rfl)⟩
      obtain ⟨new, hpacks, hbelow⟩ := hextends.packs
      refine ⟨new ++ [(id, pack)], by rw [hpacks, List.append_assoc], fun e he => ?_⟩
      obtain he | he := List.mem_append.mp he
      · obtain ⟨hnot, i, hi, hreach⟩ := hbelow e he
        have hedge : ImportsPack fields dir id i.content :=
          (importsPack_iff hpack himports).mpr ⟨i, hi, rfl⟩
        exact ⟨fun hmem => hnot (List.mem_append_left _ hmem), .head hedge hreach⟩
      · cases List.mem_singleton.mp he
        exact ⟨hstack, .refl⟩

/-! ## Room on the stack -/

/-- Every finished pack has a ceiling. -/
def Recorded (p : Progress Mode) : Prop := ∀ a ∈ p.done, ∃ c, p.ceilings.get? a = some c

theorem Recorded.insert (h : Recorded p) (hdone : ∀ a ∈ q.done, a = id ∨ a ∈ p.done)
    (hceilings : q.ceilings = p.ceilings.insert id c) : Recorded q := by
  intro a ha
  rw [hceilings, SortedMap.get?_insert]
  by_cases heq : a = id
  · exact ⟨c, if_pos heq⟩
  · rw [if_neg heq]
    exact h a ((hdone a ha).resolve_left heq)

theorem visit_recorded (depth : Nat) {stack : List ContentId} (hp : Recorded p)
    (h : visit fields dir depth id c stack p = .ok q) : Recorded q := by
  induction depth generalizing id c stack p q with
  | zero => cases h
  | succ depth ih =>
    simp only [visit, Except.guard_eq_ok_iff] at h
    obtain ⟨-, h⟩ := h
    by_cases hdone : id ∈ p.done
    · rw [if_pos hdone] at h
      obtain ⟨prior, hprior⟩ := hp id hdone
      simp only [revisit, hprior, Except.ok.injEq] at h
      subst h
      exact hp.insert (fun a ha => .inr ha) rfl
    · rw [if_neg hdone] at h
      simp only [Except.bind_eq_ok_iff] at h
      obtain ⟨pack, -, imports, -, u, hu, h⟩ := h
      cases h
      have hkeep : Recorded u := by
        refine Run.keeps (fun i _ s t hs ht => ?_) hp hu
        have hs' : Recorded { s with aliases := s.aliases.insert i.aliasName i.content } := hs
        exact ih hs' (Except.guard_eq_ok_iff.mp ht).2
      exact hkeep.insert (fun a ha => SortedSet.mem_insert.mp ha) rfl

/-- A stack without repetition fits among the packs that are reached. -/
theorem length_lt_of_not_mem {S : Finset ContentId} {stack : List ContentId} (hnodup : stack.Nodup)
    (hstack : ∀ a ∈ stack, a ∈ S) (hid : id ∈ S) (hnew : id ∉ stack) : stack.length < S.card := by
  have hnodup' : (stack.concat id).Nodup := hnodup.concat hnew
  have hsub : (stack.concat id).toFinset ⊆ S := by
    intro a ha
    rw [List.mem_toFinset, List.concat_eq_append, List.mem_append, List.mem_singleton] at ha
    obtain ha | rfl := ha
    · exact hstack a ha
    · exact hid
  have hcard := Finset.card_le_card hsub
  rwa [List.toFinset_card_of_nodup hnodup', List.length_concat] at hcard

/-- A loop whose calls end and have the same outcomes with more room. -/
theorem loop_ends
    (visit visit' : ContentId → SortedSet Symbol → Progress Mode → Visit (Progress Mode))
    {imports : List Import}
    (h : ∀ i ∈ imports, ∀ c s, Recorded s → visit i.content c s ≠ .error .panicked ∧
      visit i.content c s = visit' i.content c s ∧ ∀ t, visit i.content c s = .ok t → Recorded t)
    (hp : Recorded p) (c : SortedSet Symbol) :
    imports.foldlM (visitImport visit c) p ≠ .error .panicked ∧
      imports.foldlM (visitImport visit c) p = imports.foldlM (visitImport visit' c) p := by
  have hkeep : ∀ i ∈ imports, ∀ s, Recorded s → ∀ t, visitImport visit c s i = .ok t →
      Recorded t := by
    intro i hi s hs t ht
    exact (h i hi _ { s with aliases := s.aliases.insert i.aliasName i.content } hs).2.2 t
      (Except.guard_eq_ok_iff.mp ht).2
  constructor
  · refine Run.never (fun i hi s hs => ⟨?_, hkeep i hi s hs⟩) hp
    unfold visitImport
    split
    · exact nofun
    · exact (h i hi _ { s with aliases := s.aliases.insert i.aliasName i.content } hs).1
  · refine Run.congr (fun i hi s hs => ⟨?_, hkeep i hi s hs⟩) hp
    rw [visitImport, visitImport,
      (h i hi _ { s with aliases := s.aliases.insert i.aliasName i.content } hs).2.1]

/-- The loop of `visit` over the imports of a new pack. -/
theorem visit_new {stack : List ContentId} (hmem : id ∉ stack) (hdone : id ∉ p.done)
    (hpack : lookupPack dir id = .ok pack) (himports : pack.typedImports fields = .ok imports)
    (depth : Nat) (c : SortedSet Symbol) :
    visit fields dir (depth + 1) id c stack p = (do
      let q ← imports.foldlM
        (visitImport (fun i c p => visit fields dir depth i c (stack ++ [id]) p) c) p
      return { q with
        done := q.done.insert id
        ceilings := q.ceilings.insert id c
        packs := q.packs ++ [(id, pack)] }) := by
  rw [visit, if_neg hmem, if_neg hdone, hpack]
  simp only [Except.mapError, Except.ok_bind, himports]

/-- With room for one call more than there are packs to reach, the walk ends; more room changes
nothing. -/
theorem visit_ends {S : Finset ContentId}
    (hclosed : ∀ a ∈ S, ∀ b, ImportsPack fields dir a b → b ∈ S) {d d' : Nat}
    {stack : List ContentId} (hnodup : stack.Nodup) (hstack : ∀ a ∈ stack, a ∈ S) (hid : id ∈ S)
    (hp : Recorded p) (hd : S.card < d + stack.length) (hd' : S.card < d' + stack.length) :
    visit fields dir d id c stack p ≠ .error .panicked ∧
      visit fields dir d id c stack p = visit fields dir d' id c stack p := by
  have hfits : stack.length ≤ S.card := by
    rw [← List.toFinset_card_of_nodup hnodup]
    exact Finset.card_le_card fun a ha => hstack a (List.mem_toFinset.mp ha)
  induction d generalizing d' id c stack p with
  | zero => omega
  | succ d ih =>
    cases d' with
    | zero => omega
    | succ d' =>
      by_cases hmem : id ∈ stack
      · simp only [visit, if_pos hmem]
        exact ⟨by rintro ⟨⟩, trivial⟩
      by_cases hdone : id ∈ p.done
      · obtain ⟨prior, hprior⟩ := hp id hdone
        simp only [visit, if_neg hmem, if_pos hdone, revisit, hprior]
        exact ⟨by rintro ⟨⟩, trivial⟩
      cases hpack : lookupPack dir id with
      | error e =>
        simp only [visit, if_neg hmem, if_neg hdone, hpack]
        exact ⟨by rintro ⟨⟩, rfl⟩
      | ok pack =>
        cases himports : pack.typedImports fields with
        | error e =>
          simp only [visit, if_neg hmem, if_neg hdone, hpack, Except.mapError, Except.ok_bind,
            himports]
          exact ⟨by rintro ⟨⟩, rfl⟩
        | ok imports =>
          have hlt := length_lt_of_not_mem hnodup hstack hid hmem
          have hlength : (stack ++ [id]).length = stack.length + 1 := by simp
          have hnodup' : (stack ++ [id]).Nodup := by
            rw [← List.concat_eq_append]
            exact hnodup.concat hmem
          have hstack' : ∀ a ∈ stack ++ [id], a ∈ S := by
            intro a ha
            obtain ha | ha := List.mem_append.mp ha
            · exact hstack a ha
            · rwa [List.mem_singleton.mp ha]
          have hcalls : ∀ i ∈ imports, ∀ c s, Recorded s →
              visit fields dir d i.content c (stack ++ [id]) s ≠ .error .panicked ∧
                visit fields dir d i.content c (stack ++ [id]) s =
                  visit fields dir d' i.content c (stack ++ [id]) s ∧
                ∀ t, visit fields dir d i.content c (stack ++ [id]) s = .ok t → Recorded t := by
            intro i hi c s hs
            have hedge : ImportsPack fields dir id i.content :=
              (importsPack_iff hpack himports).mpr ⟨i, hi, rfl⟩
            have hroom : S.card < d' + (stack ++ [id]).length := by omega
            obtain ⟨hne, heq⟩ := ih hnodup' hstack' (hclosed id hid _ hedge) hs (by omega) hroom
              (by omega)
            exact ⟨hne, heq, fun t ht => visit_recorded d hs ht⟩
          obtain ⟨hnever, hsame⟩ := loop_ends
            (fun i c p => visit fields dir d i c (stack ++ [id]) p)
            (fun i c p => visit fields dir d' i c (stack ++ [id]) p) hcalls hp c
          rw [visit_new hmem hdone hpack himports, visit_new hmem hdone hpack himports, ← hsame]
          refine ⟨fun herror => ?_, rfl⟩
          cases hrun : imports.foldlM
              (visitImport (fun i c p => visit fields dir d i c (stack ++ [id]) p) c) p with
          | error e =>
            rw [hrun] at herror
            cases herror
            exact hnever hrun
          | ok q =>
            rw [hrun] at herror
            cases herror

/-! ## The closure -/

/-- There are finitely many ids of 71 characters. -/
instance : Finite ContentId := by
  have hchar : Finite Char := .of_injective (fun c : Char => c.val.toFin) fun a b h =>
    Char.ext (UInt32.toFin_inj.mp h)
  have hlists : Finite {l : List Char | l.length = 71} := List.finite_length_eq Char 71
  have hlength (id : ContentId) : id.text.toList.length = 71 := by
    have hdigits := id.digest.1
    rw [List.length_drop] at hdigits
    omega
  refine .of_injective (fun id : ContentId => (⟨id.text.toList, hlength id⟩ :
    {l : List Char | l.length = 71})) fun a b h => ?_
  exact ContentId.text_injective (String.toList_inj.mp (congrArg Subtype.val h))

/-- The packs that are reached from a pack. -/
noncomputable def reached (fields : Fields Mode) (dir : PackDir Mode) (root : ContentId) :
    Finset ContentId := (Set.toFinite {a | Reachable fields dir root a}).toFinset

theorem mem_reached_iff : a ∈ reached fields dir root ↔ Reachable fields dir root a :=
  Set.Finite.mem_toFinset _

/-- A walk with room for the packs that are reached ends, and more room changes nothing. -/
theorem resolve_ends (root : ContentId) (ceiling : SortedSet Symbol) {depth : Nat}
    (hdepth : (reached fields dir root).card < depth) :
    resolve fields dir depth root ceiling ≠ .error .panicked ∧
      resolve fields dir depth root ceiling =
        resolve fields dir ((reached fields dir root).card + 1) root ceiling := by
  have hclosed : ∀ a ∈ reached fields dir root, ∀ b, ImportsPack fields dir a b →
      b ∈ reached fields dir root := by
    intro a ha b hab
    exact mem_reached_iff.mpr ((mem_reached_iff.mp ha).tail hab)
  obtain ⟨hnever, hsame⟩ := visit_ends (c := ceiling) (p := .init) hclosed .nil nofun
    (mem_reached_iff.mpr .refl) nofun hdepth (Nat.lt_succ_self _)
  rw [resolve, resolve, ← hsame]
  refine ⟨fun herror => ?_, rfl⟩
  cases hrun : visit fields dir depth root ceiling [] .init with
  | error e =>
    rw [hrun] at herror
    cases herror
    exact hnever hrun
  | ok p =>
    rw [hrun] at herror
    cases herror

/-- The packs are those that are reached, each once and after all its imports, the root last. -/
theorem resolve_packs (h : resolve fields dir depth root ceiling = .ok out) :
    PostOrder (ImportsPack fields dir) (out.packs.map (·.1)) ∧
      (∀ a, a ∈ out.packs.map (·.1) ↔ Reachable fields dir root a) ∧
      (∀ e ∈ out.packs, lookupPack dir e.1 = .ok e.2) ∧
      ∀ e ∈ out.packs, ∀ e' ∈ out.packs, ∀ imports imports',
        e.2.typedImports fields = .ok imports → e'.2.typedImports fields = .ok imports' →
          ∀ i ∈ imports, ∀ i' ∈ imports', i.aliasName = i'.aliasName → i.content = i'.content := by
  obtain ⟨p, hp, h⟩ := Except.bind_eq_ok_iff.mp h
  cases h
  obtain ⟨⟨hfinished, ⟨new, hpacks, hbelow⟩, -⟩, hroot⟩ :=
    visit_finishes depth [] root ceiling .init p .init nofun hp
  rw [hfinished.done] at hroot
  refine ⟨hfinished.order, fun a => ⟨fun ha => ?_, hfinished.order.mem_of_reaches hroot⟩,
    hfinished.found, ?_⟩
  · obtain ⟨e, he, rfl⟩ := List.mem_map.mp ha
    rw [hpacks] at he
    exact (hbelow e he).2
  · intro e he e' he' imports imports' himports himports' i hi i' hi' halias
    have hi := hfinished.bound e he imports himports i hi
    have hi' := hfinished.bound e' he' imports' himports' i' hi'
    rw [halias, hi'] at hi
    exact (Option.some.inj hi).symm

/-- A walk ends. If it succeeds, its packs are those that are reached, each once and after all its
imports, the root last, and an alias names one content; if an import leads to a cycle or to a
missing pack, it fails. -/
theorem resolve_closure (fields : Fields Mode) (dir : PackDir Mode) (root : ContentId)
    (ceiling : SortedSet Symbol) :
    (∃ depth outcome, outcome ≠ .error .panicked ∧
        ∀ d ≥ depth, resolve fields dir d root ceiling = outcome) ∧
      (∀ depth out, resolve fields dir depth root ceiling = .ok out →
        (out.packs.map (·.1)).Nodup ∧
        (∀ a, a ∈ out.packs.map (·.1) ↔ Reachable fields dir root a) ∧
        (∀ front a rest, out.packs.map (·.1) = front ++ a :: rest →
          ∀ b, ImportsPack fields dir a b → b ∈ front) ∧
        (out.packs.map (·.1)).getLast? = some root ∧
        (∀ e ∈ out.packs, lookupPack dir e.1 = .ok e.2) ∧
        ∀ e ∈ out.packs, ∀ e' ∈ out.packs, ∀ imports imports',
          e.2.typedImports fields = .ok imports → e'.2.typedImports fields = .ok imports' →
            ∀ i ∈ imports, ∀ i' ∈ imports', i.aliasName = i'.aliasName →
              i.content = i'.content) ∧
      ((∃ a, Reachable fields dir root a ∧
          (Relation.TransGen (ImportsPack fields dir) a a ∨ dir a = none)) →
        ∃ depth e, ∀ d ≥ depth, resolve fields dir d root ceiling = .error (.failure e)) := by
  have hends : ∀ d ≥ (reached fields dir root).card + 1,
      resolve fields dir d root ceiling ≠ .error .panicked ∧ resolve fields dir d root ceiling =
        resolve fields dir ((reached fields dir root).card + 1) root ceiling :=
    fun d hd => resolve_ends root ceiling hd
  refine ⟨⟨_, _, (hends _ le_rfl).1, fun d hd => (hends d hd).2⟩, ?_, ?_⟩
  · intro depth out h
    obtain ⟨horder, hmem, hfound, halias⟩ := resolve_packs h
    refine ⟨horder.nodup, hmem, ?_, ?_, hfound, halias⟩
    · intro front a rest hids b hab
      rw [hids] at horder
      exact horder.before hab
    · exact horder.getLast?_eq ((hmem root).mpr .refl) fun b hb => (hmem b).mp hb
  · rintro ⟨a, hreach, hbad⟩
    refine ⟨(reached fields dir root).card + 1, ?_⟩
    cases hrun : resolve fields dir ((reached fields dir root).card + 1) root ceiling with
    | ok out =>
      obtain ⟨horder, hmem, hfound, -⟩ := resolve_packs hrun
      have ha := (hmem a).mpr hreach
      obtain hcycle | hmissing := hbad
      · exact absurd hcycle (horder.acyclic ha)
      · obtain ⟨e, he, rfl⟩ := List.mem_map.mp ha
        have hpack := hfound e he
        rw [lookupPack, hmissing] at hpack
        cases hpack
    | error e =>
      cases e with
      | panicked => exact absurd hrun (hends _ le_rfl).1
      | failure e => exact ⟨e, fun d hd => (hends d hd).2.trans hrun⟩

end

end SimAgentNet.CapabilityPacks
