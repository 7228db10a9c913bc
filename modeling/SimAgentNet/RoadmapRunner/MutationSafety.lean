import SimAgentNet.RoadmapRunner.Mutation

/-! # Crash safety of sealed mutations

Every call of the engine moves each path of its plan from the preimage to the postimage or not at
all, whatever is interrupted, and a plan of which a path is foreign is not touched. -/

namespace SimAgentNet.RoadmapRunner

/-! ## Sealed plans -/

/-- What sealing guarantees of the entries: one entry a path, and valid images. -/
structure SealedMutationPlan.Sealed (plan : SealedMutationPlan) : Prop where
  path_inj : e ∈ plan.entries → e' ∈ plan.entries → e.path = e'.path → e = e'
  preimage_valid : e ∈ plan.entries → e.preimage.Valid
  postimage_valid : e ∈ plan.entries → e.postimage.Valid

/-- A sorted list without equal neighbours is strictly sorted. -/
theorem pairwise_lt_of_neighbours {f : α → String} {l : List α}
    (hl : l.Pairwise fun a b => f a ≤ f b)
    (hn : ((l.zip l.tail).any fun w => f w.1 = f w.2) = false) :
    l.Pairwise fun a b => f a < f b := by
  induction l with
  | nil => exact .nil
  | cons a l ih =>
    obtain ⟨ha, hl'⟩ := List.pairwise_cons.mp hl
    cases l with
    | nil => exact List.pairwise_singleton _ _
    | cons b l =>
      simp only [List.tail_cons, List.zip_cons_cons, List.any_cons, Bool.or_eq_false_iff,
        decide_eq_false_iff_not] at hn
      have hb := ih hl' hn.2
      have hab : f a < f b := lt_of_le_of_ne (ha b List.mem_cons_self) hn.1
      refine List.pairwise_cons.mpr ⟨?_, hb⟩
      intro c hc
      obtain rfl | hc := List.mem_cons.mp hc
      · exact hab
      · exact hab.trans ((List.pairwise_cons.mp hb).1 c hc)

theorem checkEntry_ok (h : checkEntry paths e = .ok ()) :
    e.preimage.Valid ∧ e.postimage.Valid := by
  simp only [checkEntry, Except.bind_eq_ok_iff] at h
  obtain ⟨_, -, _, hpre, _, hpost, -⟩ := h
  exact ⟨hpre, hpost⟩

theorem SealedMutationPlan.fromImages_ok
    (h : SealedMutationPlan.fromImages contentId images = .ok plan) :
    plan.Sealed ∧ plan.entries = images.insertionSort (fun a b => a.path ≤ b.path) := by
  simp only [SealedMutationPlan.fromImages, Except.guard_eq_ok_iff, Except.bind_eq_ok_iff] at h
  obtain ⟨hn, _, hchecks, total, -, -, id, -, hplan⟩ := h
  cases hplan
  have hsorted := (images.pairwise_insertionSort fun a b => a.path ≤ b.path)
  have hlt := pairwise_lt_of_neighbours (f := SealedEntry.path) hsorted
    (Bool.eq_false_iff.mpr hn)
  have hnodup : ((images.insertionSort fun a b => a.path ≤ b.path).map (·.path)).Nodup :=
    List.pairwise_map.mpr (hlt.imp fun h => ne_of_lt h)
  have hc := Except.forM_eq_ok_iff.mp hchecks
  exact ⟨⟨fun he he' => List.inj_on_of_nodup_map hnodup he he',
    fun he => (checkEntry_ok (hc _ he)).1, fun he => (checkEntry_ok (hc _ he)).2⟩, rfl⟩

/-! ## Classification of held and foreign paths -/

/-- The law of the transition classifier: an equal pair is unchanged whatever is there, otherwise
the actual image is the base, the intended one or foreign; valid images are classified. -/
structure ClassifyTransition.Lawful (classifyTransition : ClassifyTransition) : Prop where
  state : classifyTransition pre post actual = .ok s →
    s = if pre = post then .unchanged else if actual = pre then .base
      else if actual = post then .intended else .foreign
  total : pre.Valid → post.Valid → actual.Valid →
    ∃ s, classifyTransition pre post actual = .ok s

section
variable {classifyTransition : ClassifyTransition} (hc : classifyTransition.Lawful)
include hc

theorem classifyImage_foreign (hne : pre ≠ post) (hpre : actual ≠ pre) (hpost : actual ≠ post) :
    classifyImage classifyTransition pre post actual = .foreign := by
  unfold classifyImage
  cases h : classifyTransition pre post actual with
  | error e => rfl
  | ok state =>
    have := hc.state h
    rw [if_neg hne, if_neg hpre, if_neg hpost] at this
    cases this
    rfl

/-- A path at its preimage or its postimage is never foreign. -/
theorem classifyImage_held (hpre : pre.Valid) (hpost : post.Valid)
    (h : actual = pre ∨ actual = post) :
    classifyImage classifyTransition pre post actual =
      if pre = post then .unchanged else if actual = pre then .preimage else .postimage := by
  have hactual : actual.Valid := h.elim (· ▸ hpre) (· ▸ hpost)
  obtain ⟨state, hs⟩ := hc.total hpre hpost hactual
  unfold classifyImage
  rw [hs, hc.state hs]
  by_cases heq : pre = post
  · simp [heq]
  · by_cases hp : actual = pre
    · simp [heq, hp]
    · simp [heq, h.resolve_left hp, Ne.symm heq]

/-- A path that needs no write and is not foreign has its postimage, or its images are equal. -/
theorem eq_post_of_classifyImage
    (h : classifyImage classifyTransition pre post actual = .postimage ∨
      classifyImage classifyTransition pre post actual = .unchanged) (hne : pre ≠ post) :
    actual = post := by
  unfold classifyImage at h
  cases hs : classifyTransition pre post actual with
  | error e => simp [hs] at h
  | ok state =>
    rw [hs, hc.state hs, if_neg hne] at h
    by_cases hp : actual = pre
    · simp [hp] at h
    · by_cases hq : actual = post
      · exact hq
      · simp [hp, hq] at h

end

/-! ## Workspaces -/

section
variable {ω ι : Type} (image : ω → String → PortableImage) (plan : SealedMutationPlan)

/-- Each path of the plan holds its preimage or its postimage. -/
def Held (w : ω) : Prop :=
  ∀ e ∈ plan.entries, image w e.path = e.preimage ∨ image w e.path = e.postimage

/-- Some path that the plan changes holds neither of its images. -/
def HasForeign (w : ω) : Prop :=
  ∃ e ∈ plan.entries, e.preimage ≠ e.postimage ∧
    image w e.path ≠ e.preimage ∧ image w e.path ≠ e.postimage

/-- Each path that the plan changes holds its postimage. -/
def Done (w : ω) : Prop :=
  ∀ e ∈ plan.entries, e.preimage ≠ e.postimage → image w e.path = e.postimage

/-- Each path of the plan has kept its image or has received its postimage. -/
def Advance (w w' : ω) : Prop :=
  ∀ e ∈ plan.entries, image w' e.path = image w e.path ∨ image w' e.path = e.postimage

/-- A workspace that stores the images `image`: observing returns them and changes nothing, and
applying an entry leaves its path or installs its postimage, and touches no other path of the
plan. -/
structure MutationWorkspace.Lawful (workspace : MutationWorkspace ω) : Prop where
  observe_image : workspace.observe p w = (.ok i, w') → i = image w p
  observe_keeps : workspace.observe p w = (r, w') → image w' = image w
  scratch_keeps : workspace.scratchAvailable w = (r, w') → image w' = image w
  apply_own : e ∈ plan.entries → workspace.apply e fail (w, past) = (r, w', past') →
    image w' e.path = image w e.path ∨ image w' e.path = e.postimage
  apply_other : e ∈ plan.entries → e' ∈ plan.entries → e'.path ≠ e.path →
    workspace.apply e fail (w, past) = (r, w', past') → image w' e'.path = image w e'.path

/-- An entry that is applied without an error is installed. -/
def MutationWorkspace.Installs (workspace : MutationWorkspace ω) : Prop :=
  ∀ e ∈ plan.entries, ∀ fail w past w' past',
    workspace.apply e fail (w, past) = (.ok (), w', past') → image w' e.path = e.postimage

variable {image plan}

theorem Advance.of_eq (h : image w' = image w) : Advance image plan w w' :=
  fun _ _ => .inl (by rw [h])

theorem Advance.refl (w : ω) : Advance image plan w w := .of_eq rfl

theorem Advance.trans (h : Advance image plan w w') (h' : Advance image plan w' w'') :
    Advance image plan w w'' := by
  intro e he
  obtain h₂ | h₂ := h' e he
  · exact (h e he).imp h₂.trans h₂.trans
  · exact .inr h₂

theorem Advance.held (h : Advance image plan w w') (hw : Held image plan w) :
    Held image plan w' := by
  intro e he
  obtain h₁ | h₁ := h e he
  · exact (hw e he).imp h₁.trans h₁.trans
  · exact .inr h₁

/-- A postimage is never taken back. -/
theorem Advance.postimage (h : Advance image plan w w') (he : e ∈ plan.entries)
    (hw : image w e.path = e.postimage) : image w' e.path = e.postimage :=
  (h e he).elim (·.trans hw) id

theorem MutationWorkspace.Lawful.advance {workspace : MutationWorkspace ω}
    (hw : workspace.Lawful image plan) (hp : plan.Sealed) (he : e ∈ plan.entries)
    (h : workspace.apply e fail (w, past) = (r, w', past')) : Advance image plan w w' := by
  intro e' he'
  by_cases hpath : e'.path = e.path
  · cases hp.path_inj he' he hpath
    exact hw.apply_own he h
  · exact .inl (hw.apply_other he he' hpath h)

variable (image plan) in
/-- The workspaces seen since `w₀`, the last of which is followed by `w`: none of them takes back
what an earlier one had installed. -/
structure Track (w₀ : ω) (ms : List ω) (w : ω) : Prop where
  pairwise : (w₀ :: ms).Pairwise (Advance image plan)
  upTo : ∀ v ∈ w₀ :: ms, Advance image plan v w

namespace Track

theorem start (w : ω) : Track image plan w [] w :=
  ⟨List.pairwise_singleton _ _, fun _ hv => List.mem_singleton.mp hv ▸ .refl _⟩

theorem next (h : Track image plan w₀ ms w) (ha : Advance image plan w w') :
    Track image plan w₀ (ms ++ [w']) w' := by
  have hup : ∀ v ∈ w₀ :: ms, Advance image plan v w' := fun v hv => (h.upTo v hv).trans ha
  refine ⟨?_, ?_⟩
  · rw [← List.cons_append]
    refine List.pairwise_append.mpr ⟨h.pairwise, List.pairwise_singleton _ _, ?_⟩
    intro v hv v' hv'
    exact List.mem_singleton.mp hv' ▸ hup v hv
  · intro v hv
    rw [← List.cons_append, List.mem_append, List.mem_singleton] at hv
    obtain hv | rfl := hv
    · exact hup v hv
    · exact .refl _

theorem append (h : Track image plan w₀ ms w) (h' : Track image plan w ms' w') :
    Track image plan w₀ (ms ++ ms') w' := by
  have hup := fun v hv => (h.upTo v hv).trans (h'.upTo w List.mem_cons_self)
  refine ⟨?_, ?_⟩
  · rw [← List.cons_append]
    refine List.pairwise_append.mpr ⟨h.pairwise, (List.pairwise_cons.mp h'.pairwise).2, ?_⟩
    intro v hv v' hv'
    exact (h.upTo v hv).trans ((List.pairwise_cons.mp h'.pairwise).1 v' hv')
  · intro v hv
    rw [← List.cons_append, List.mem_append] at hv
    obtain hv | hv := hv
    · exact hup v hv
    · exact h'.upTo v (List.mem_cons_of_mem _ hv)

theorem last (h : Track image plan w₀ ms w) : Advance image plan w₀ w :=
  h.upTo w₀ List.mem_cons_self

theorem held (h : Track image plan w₀ ms w) (hw : Held image plan w₀) (hv : v ∈ w₀ :: ms) :
    Held image plan v := by
  obtain rfl | hv := List.mem_cons.mp hv
  · exact hw
  · exact ((List.pairwise_cons.mp h.pairwise).1 v hv).held hw

end Track

end

/-! ## Decisions over agreeing observations -/

section
variable {classifyTransition : ClassifyTransition} (hc : classifyTransition.Lawful)
  {plan : SealedMutationPlan} {observed : SortedMap String PortableImage}
  {img : String → PortableImage}

variable (plan observed img) in
/-- The observations are the images of the plan's paths. -/
def Agrees : Prop := ∀ e ∈ plan.entries, observed.get? e.path = some (img e.path)

theorem entryState_of_agrees (ha : Agrees plan observed img) (he : e ∈ plan.entries) :
    entryState classifyTransition observed e =
      classifyImage classifyTransition e.preimage e.postimage (img e.path) := by
  rw [entryState, ha e he]

theorem mem_pathsIn (he : e ∈ plan.entries)
    (hs : entryState classifyTransition observed e = state) :
    e.path ∈ pathsIn classifyTransition state plan observed :=
  List.mem_map_of_mem (List.mem_filter.mpr ⟨he, by simpa using hs⟩)

variable (classifyTransition plan observed) in
/-- A decision other than an ambiguous one names the paths at their preimages, and no path is
foreign. -/
theorem classifyPlan_cases :
    (∃ ps, classifyPlan classifyTransition plan observed = .ambiguous ps ∧
      ps = pathsIn classifyTransition .foreign plan observed ∧ ps ≠ []) ∨
    (pathsIn classifyTransition .foreign plan observed = [] ∧
      (classifyPlan classifyTransition plan observed = .committed ∧
          pathsIn classifyTransition .preimage plan observed = [] ∨
        ∃ ps, classifyPlan classifyTransition plan observed = .apply ps ∧
          ps = pathsIn classifyTransition .preimage plan observed ∧ ps ≠ [])) := by
  simp only [classifyPlan]
  split
  · rename_i h
    exact .inl ⟨_, rfl, rfl, h⟩
  · rename_i h
    refine .inr ⟨by simpa using h, ?_⟩
    split
    · rename_i h'
      exact .inl ⟨rfl, h'⟩
    · rename_i h'
      exact .inr ⟨_, rfl, rfl, h'⟩

include hc

theorem foreign_of_hasForeign {image : ω → String → PortableImage}
    (ha : Agrees plan observed (image w)) (hf : HasForeign image plan w) :
    pathsIn classifyTransition .foreign plan observed ≠ [] := by
  obtain ⟨e, he, hne, hpre, hpost⟩ := hf
  have hs := (entryState_of_agrees ha he).trans (classifyImage_foreign hc hne hpre hpost)
  exact List.ne_nil_of_mem (mem_pathsIn he hs)

/-- Where no path is foreign, a path that is not to be applied is done. -/
theorem done_of_not_mem (ha : Agrees plan observed img)
    (hf : pathsIn classifyTransition .foreign plan observed = []) (he : e ∈ plan.entries)
    (hn : e.path ∉ pathsIn classifyTransition .preimage plan observed)
    (hne : e.preimage ≠ e.postimage) : img e.path = e.postimage := by
  apply eq_post_of_classifyImage hc _ hne
  rw [← entryState_of_agrees ha he]
  cases hs : entryState classifyTransition observed e with
  | preimage => exact absurd (mem_pathsIn he hs) hn
  | postimage => exact .inl rfl
  | unchanged => exact .inr rfl
  | foreign => exact absurd hf (List.ne_nil_of_mem (mem_pathsIn he hs))

theorem foreign_eq_nil_of_held {image : ω → String → PortableImage} (hp : plan.Sealed)
    (ha : Agrees plan observed (image w)) (hw : Held image plan w) :
    pathsIn classifyTransition .foreign plan observed = [] := by
  simp only [pathsIn, List.map_eq_nil_iff, List.filter_eq_nil_iff, decide_eq_true_eq]
  intro e he
  rw [entryState_of_agrees ha he,
    classifyImage_held hc (hp.preimage_valid he) (hp.postimage_valid he) (hw e he)]
  split
  · nofun
  · split <;> nofun

theorem committed_of_done {image : ω → String → PortableImage} (hp : plan.Sealed)
    (ha : Agrees plan observed (image w)) (hw : Held image plan w) (hd : Done image plan w) :
    classifyPlan classifyTransition plan observed = .committed := by
  have hf := foreign_eq_nil_of_held hc hp ha hw
  have hpre : pathsIn classifyTransition .preimage plan observed = [] := by
    simp only [pathsIn, List.map_eq_nil_iff, List.filter_eq_nil_iff, decide_eq_true_eq]
    intro e he
    rw [entryState_of_agrees ha he,
      classifyImage_held hc (hp.preimage_valid he) (hp.postimage_valid he) (hw e he)]
    split
    · nofun
    · rename_i hne
      rw [hd e he hne, if_neg (Ne.symm hne)]
      nofun
  simp [classifyPlan, hf, hpre]

end

/-! ## Operations that touch no file -/

namespace MutationEngine
open Effect (Triple)

variable {ω ι : Type} {image : ω → String → PortableImage} {A E : MutationSession ω ι → Prop}

/-- `A` outlives an operation that succeeds and changes no image, and `E` follows from it when
such an operation fails. -/
structure Steady (image : ω → String → PortableImage) (A E : MutationSession ω ι → Prop) :
    Prop where
  next : A s → image s'.workspace = image s.workspace →
    s'.moments = s.moments ++ [s'.workspace] → s'.faults = s.faults → A s'
  stop : A s → image s'.workspace = image s.workspace →
    s'.moments = s.moments ++ [s'.workspace] → s'.faults = s.faults ++ [e] → E s'

namespace Steady

/-- A fact about the images stays true along with `A`. -/
theorem and (h : Steady image A E) (R : (String → PortableImage) → Prop) :
    Steady image (fun s => A s ∧ R (image s.workspace)) E where
  next hs himg hm hf := ⟨h.next hs.1 himg hm hf, himg ▸ hs.2⟩
  stop hs := h.stop hs.1

theorem operate (h : Steady image A E)
    {x : Effect MutationError (MutationEngine ω ι × List Failpoint) α}
    {R : α → (String → PortableImage) → Prop}
    (hx : ∀ p, image (x p).2.1.workspace = image p.1.workspace)
    (hr : ∀ p a, (x p).1 = .ok a → R a (image p.1.workspace)) :
    Triple A (operate x) (fun a s => A s ∧ R a (image s.workspace)) E := by
  intro s hs
  have hx := hx (s.toMutationEngine, s.failpoints)
  have hr := hr (s.toMutationEngine, s.failpoints)
  unfold MutationEngine.operate
  generalize x (s.toMutationEngine, s.failpoints) = y at hx hr
  obtain ⟨r, engine, past⟩ := y
  cases r with
  | ok a => exact ⟨h.next hs hx rfl (List.append_nil _), hx ▸ hr a rfl⟩
  | error e => exact h.stop hs hx rfl rfl

theorem failAt (h : Steady image A E) : Triple A (failAt fail point) (fun _ => A) E :=
  (h.operate (R := fun _ _ => True) (fun _ => rfl) fun _ _ _ => trivial).weaken
    (fun _ hs => hs) (fun _ _ hs => hs.1) fun _ hs => hs

theorem onJournal (h : Steady image A E) {x : Effect MutationError ι α} :
    Triple A (onJournal x) (fun _ => A) E :=
  (h.operate (R := fun _ _ => True) (fun _ => rfl) fun _ _ _ => trivial).weaken
    (fun _ hs => hs) (fun _ _ hs => hs.1) fun _ hs => hs

theorem fence (h : Steady image A E) {journal : MutationJournal ι} :
    Triple A (fence journal plan f fail) (fun _ => A) E :=
  .bind h.failAt fun _ => .bind h.onJournal fun _ => h.failAt

variable {workspace : MutationWorkspace ω} {plan : SealedMutationPlan}
  (hw : workspace.Lawful image plan)
include hw

theorem observe (h : Steady image A E) (p : String) :
    Triple A (onWorkspace (workspace.observe p))
      (fun i s => A s ∧ i = image s.workspace p) E :=
  h.operate (R := fun i img => i = img p) (fun _ => hw.observe_keeps rfl)
    fun _ _ hi => hw.observe_image (Prod.ext hi rfl)

theorem scratchAvailable (h : Steady image A E) :
    Triple A (onWorkspace workspace.scratchAvailable) (fun _ => A) E :=
  (h.operate (R := fun _ _ => True) (fun _ => hw.scratch_keeps rfl) fun _ _ _ => trivial).weaken
    (fun _ hs => hs) (fun _ _ hs => hs.1) fun _ hs => hs

theorem observeEntries (h : Steady image A E) (es : List SealedEntry)
    (m : SortedMap String PortableImage) :
    Triple (fun s => A s ∧ ∀ p i, m.get? p = some i → i = image s.workspace p)
      (observeEntries workspace m es)
      (fun m' s => A s ∧ (∀ p i, m'.get? p = some i → i = image s.workspace p) ∧
        ∀ p, (m.get? p).isSome ∨ p ∈ es.map (·.path) → (m'.get? p).isSome) E := by
  induction es generalizing m with
  | nil => exact .pure fun s hs => ⟨hs.1, hs.2, fun p hp => by simpa using hp⟩
  | cons e es ih =>
    refine .bind ((h.and fun img => ∀ p i, m.get? p = some i → i = img p).observe hw e.path) ?_
    intro image'
    refine (ih (m.insert e.path image')).weaken ?_ ?_ fun _ hs => hs
    · intro s hs
      obtain ⟨⟨ha, hm⟩, hi⟩ := hs
      refine ⟨ha, ?_⟩
      intro p i hp
      rw [SortedMap.get?_insert] at hp
      split at hp
      · rename_i heq
        cases hp
        rw [hi, heq]
      · exact hm p i hp
    · intro m' s hs
      refine ⟨hs.1, hs.2.1, ?_⟩
      intro p hp
      apply hs.2.2
      rw [SortedMap.get?_insert]
      by_cases heq : p = e.path
      · simp [heq]
      · simpa [heq] using hp

theorem observeAll (h : Steady image A E) :
    Triple A (observeAll workspace plan)
      (fun m s => A s ∧ Agrees plan m (image s.workspace)) E := by
  refine (h.observeEntries hw plan.entries ∅).weaken ?_ ?_ fun _ hs => hs
  · intro s hs
    exact ⟨hs, nofun⟩
  · intro m s hs
    refine ⟨hs.1, ?_⟩
    intro e he
    obtain ⟨i, hi⟩ := Option.isSome_iff_exists.mp
      (hs.2.2 e.path (.inr (List.mem_map_of_mem he)))
    rw [hi, hs.2.1 _ _ hi]

end Steady

/-! ## The stages of a call -/

section
variable (image) (plan : SealedMutationPlan)

/-- No file has been written since `w₀`, and nothing has failed. -/
structure Untouched (w₀ : ω) (s : MutationSession ω ι) : Prop where
  track : Track image plan w₀ s.moments s.workspace
  images : ∀ w ∈ s.workspace :: s.moments, image w = image w₀
  faults : s.faults = []

/-- The loop has yet to see the entries `es`, of which it applies those in `paths`. Every other
entry is done, where this is the goal. -/
structure Underway (goal : Prop) (paths : List String) (es : List SealedEntry) (w₀ : ω)
    (s : MutationSession ω ι) : Prop where
  track : Track image plan w₀ s.moments s.workspace
  noForeign : ¬HasForeign image plan w₀
  faults : s.faults = []
  ready : goal → ∀ e ∈ plan.entries, e ∈ es ∧ e.path ∈ paths ∨
    (e.preimage ≠ e.postimage → image s.workspace e.path = e.postimage)

/-- The call returns a receipt. -/
structure Finished (w₀ : ω) (s : MutationSession ω ι) : Prop where
  track : Track image plan w₀ s.moments s.workspace
  noForeign : ¬HasForeign image plan w₀
  faults : s.faults = []
  done : Done image plan s.workspace

/-- The call returns an error, which one of its operations returned to it where the goal is a
receipt. -/
structure Stopped (goal : Prop) (w₀ : ω) (s : MutationSession ω ι) : Prop where
  track : Track image plan w₀ s.moments s.workspace
  images : HasForeign image plan w₀ → ∀ w ∈ s.workspace :: s.moments, image w = image w₀
  faults : goal → s.faults ≠ []

end

section
variable {plan : SealedMutationPlan} {w₀ : ω} {goal : Prop} {s s' : MutationSession ω ι}

theorem track_next (h : Track image plan w₀ s.moments s.workspace)
    (ha : Advance image plan s.workspace s'.workspace)
    (hm : s'.moments = s.moments ++ [s'.workspace]) :
    Track image plan w₀ s'.moments s'.workspace :=
  hm ▸ h.next ha

theorem images_next (h : ∀ w ∈ s.workspace :: s.moments, image w = image w₀)
    (himg : image s'.workspace = image s.workspace)
    (hm : s'.moments = s.moments ++ [s'.workspace]) :
    ∀ w ∈ s'.workspace :: s'.moments, image w = image w₀ := by
  have hs' : image s'.workspace = image w₀ := himg.trans (h _ List.mem_cons_self)
  intro w hw
  rw [hm] at hw
  simp only [List.mem_cons, List.mem_append, List.not_mem_nil, or_false] at hw
  obtain rfl | hw | rfl := hw
  · exact hs'
  · exact h w (List.mem_cons_of_mem _ hw)
  · exact hs'

theorem untouched_steady :
    Steady image (Untouched (ι := ι) image plan w₀) (Stopped image plan goal w₀) where
  next h himg hm hf :=
    ⟨track_next h.track (.of_eq himg) hm, images_next h.images himg hm, hf.trans h.faults⟩
  stop h himg hm hf :=
    ⟨track_next h.track (.of_eq himg) hm, fun _ => images_next h.images himg hm,
      fun _ => by simp [hf]⟩

theorem underway_steady :
    Steady image (Underway (ι := ι) image plan goal paths es w₀) (Stopped image plan goal w₀) where
  next h himg hm hf :=
    ⟨track_next h.track (.of_eq himg) hm, h.noForeign, hf.trans h.faults, himg ▸ h.ready⟩
  stop h himg hm hf :=
    ⟨track_next h.track (.of_eq himg) hm, fun h' => absurd h' h.noForeign, fun _ => by simp [hf]⟩

theorem finished_steady :
    Steady image (Finished (ι := ι) image plan w₀) (Stopped image plan goal w₀) where
  next h himg hm hf :=
    ⟨track_next h.track (.of_eq himg) hm, h.noForeign, hf.trans h.faults,
      fun e he hne => himg ▸ h.done e he hne⟩
  stop h himg hm hf :=
    ⟨track_next h.track (.of_eq himg) hm, fun h' => absurd h' h.noForeign, fun _ => by simp [hf]⟩

theorem Untouched.agrees (h : Untouched image plan w₀ s)
    (ha : Agrees plan observed (image s.workspace)) : Agrees plan observed (image w₀) :=
  h.images _ List.mem_cons_self ▸ ha

/-- A call that stops without a failed operation, where no receipt was the goal. -/
theorem Untouched.stopped (h : Untouched image plan w₀ s) (hg : ¬goal) :
    Stopped image plan goal w₀ s :=
  ⟨h.track, fun _ => h.images, fun h' => absurd h' hg⟩

theorem Underway.stopped (h : Underway image plan goal paths es w₀ s) (hg : ¬goal) :
    Stopped image plan goal w₀ s :=
  ⟨h.track, fun h' => absurd h' h.noForeign, fun h' => absurd h' hg⟩

end

/-! ## The functions of the engine -/

section
variable {workspace : MutationWorkspace ω} {journal : MutationJournal ι}
  {classifyTransition : ClassifyTransition} {plan : SealedMutationPlan} {w₀ : ω} {goal : Prop}
  (hc : classifyTransition.Lawful) (hp : plan.Sealed) (hw : workspace.Lawful image plan)
  (hgoal : goal → Held image plan w₀ ∧ workspace.Installs image plan)

include hp hw hgoal in
/-- Applying the next entry of the loop: its path advances, and is installed where a receipt is
the goal. -/
theorem applyEntry_spec (he : e ∈ plan.entries) :
    Triple (Underway image plan goal paths (e :: es) w₀)
      (applyEntry (ι := ι) workspace e fail)
      (fun _ s => Underway image plan goal paths es w₀ s ∧
        (goal → image s.workspace e.path = e.postimage))
      (Stopped image plan goal w₀) := by
  intro s hs
  simp only [applyEntry, operate, Effect.focus]
  rcases hx : workspace.apply e fail (s.workspace, s.failpoints) with ⟨r, w', past'⟩
  have hadv := hw.advance hp he hx
  cases r with
  | error err =>
    exact ⟨hs.track.next hadv, fun h' => absurd h' hs.noForeign, fun _ => by simp⟩
  | ok u =>
    have hinst : goal → image w' e.path = e.postimage := fun hg =>
      (hgoal hg).2 e he _ _ _ _ _ hx
    refine ⟨⟨hs.track.next hadv, hs.noForeign, (List.append_nil _).trans hs.faults, ?_⟩, hinst⟩
    intro hg e' he'
    obtain ⟨hmem, hpath⟩ | hdone := hs.ready hg e' he'
    · obtain rfl | hmem := List.mem_cons.mp hmem
      · exact .inr fun _ => hinst hg
      · exact .inl ⟨hmem, hpath⟩
    · exact .inr fun hne => hadv.postimage he' (hdone hne)

include hp hw hgoal in
theorem applyFrom_spec (hes : ∀ e ∈ es, e ∈ plan.entries) :
    Triple (Underway image plan goal paths es w₀)
      (applyFrom workspace journal plan paths fail index es)
      (fun _ => Underway image plan goal paths [] w₀) (Stopped image plan goal w₀) := by
  induction es generalizing index with
  | nil => exact .pure fun _ hs => hs
  | cons e es ih =>
    have he := hes e List.mem_cons_self
    have ih := fun n => @ih n fun e' he' => hes e' (List.mem_cons_of_mem _ he')
    unfold applyFrom
    split
    · refine .bind underway_steady.fence fun _ => ?_
      refine .bind (applyEntry_spec hp hw hgoal he) fun _ => ?_
      -- From here on the images are those that applying the entry left.
      have hunder : Steady image (Underway (ι := ι) image plan goal paths es w₀)
        (Stopped image plan goal w₀) := underway_steady
      have hst := hunder.and fun img => goal → img e.path = e.postimage
      refine .bind hst.failAt fun _ => .bind (hst.observe hw e.path) fun actual => ?_
      refine .bind (hst.and fun img => actual = img e.path).failAt fun _ => ?_
      split
      · rename_i hne
        refine .fail fun s hs => ?_
        obtain ⟨⟨hu, hinst⟩, hactual⟩ := hs
        exact hu.stopped fun hg => hne (hactual.trans (hinst hg))
      · exact (ih _).weaken (fun _ hs => hs.1.1) (fun _ _ hs => hs) fun _ hs => hs
    · rename_i hpath
      refine (ih _).weaken ?_ (fun _ _ hs => hs) fun _ hs => hs
      intro s hs
      refine ⟨hs.track, hs.noForeign, hs.faults, ?_⟩
      intro hg e' he'
      refine (hs.ready hg e' he').imp_left ?_
      intro hmem
      obtain rfl | hmem' := List.mem_cons.mp hmem.1
      · exact absurd (List.contains_iff_mem.mpr hmem.2) hpath
      · exact ⟨hmem', hmem.2⟩

theorem receipt_spec :
    Triple (Finished image plan w₀) (receipt (ι := ι) workspace plan)
      (fun r s => r.planId = plan.id ∧ Finished image plan w₀ s) (Stopped image plan goal w₀) :=
  .bind (Triple.get fun _ hs => hs) fun _ => .pure fun _ (hs : Finished image plan w₀ _) => ⟨rfl, hs⟩

include hc hp hw hgoal in
theorem verify_spec :
    Triple (Underway image plan goal paths [] w₀)
      (verify workspace journal classifyTransition plan fail)
      (fun r s => r.planId = plan.id ∧ Finished image plan w₀ s) (Stopped image plan goal w₀) := by
  refine .bind underway_steady.fence fun _ => ?_
  refine .bind (underway_steady.observeAll hw) fun observed => ?_
  -- Where a receipt is the goal, every entry is done, and so the decision is to commit.
  have hcommit : ∀ s : MutationSession ω ι, Underway image plan goal paths [] w₀ s →
      Agrees plan observed (image s.workspace) → goal →
        classifyPlan classifyTransition plan observed = .committed := by
    intro s hs ha hg
    have hheld := hs.track.last.held (hgoal hg).1
    refine committed_of_done hc hp ha hheld fun e he => ?_
    exact (hs.ready hg e he).resolve_left fun hmem => nomatch hmem.1
  obtain ⟨ps, hd, -, -⟩ | ⟨hf, ⟨hd, hpre⟩ | ⟨ps, hd, -, -⟩⟩ :=
    classifyPlan_cases classifyTransition plan observed
  · rw [hd]
    refine .fail fun s hs => hs.1.stopped fun hg => ?_
    exact nomatch hd.symm.trans (hcommit s hs.1 hs.2 hg)
  · rw [hd]
    refine .bind (Triple.weaken finished_steady.fence ?_ (fun _ _ hs => hs) fun _ hs => hs)
      fun _ => receipt_spec
    intro s hs
    refine ⟨hs.1.track, hs.1.noForeign, hs.1.faults, fun e he => ?_⟩
    exact done_of_not_mem hc hs.2 hf he (hpre ▸ List.not_mem_nil)
  · rw [hd]
    refine .fail fun s hs => hs.1.stopped fun hg => ?_
    exact nomatch hd.symm.trans (hcommit s hs.1 hs.2 hg)

include hc hp hw hgoal in
theorem applyAndVerify_spec :
    Triple (Underway image plan goal paths plan.entries w₀)
      (applyAndVerify workspace journal classifyTransition plan paths fail)
      (fun r s => r.planId = plan.id ∧ Finished image plan w₀ s) (Stopped image plan goal w₀) :=
  .bind (applyFrom_spec hp hw hgoal fun _ he => he) fun _ => verify_spec hc hp hw hgoal

include hc hp hw hgoal in
theorem resumeApply_spec :
    Triple (Untouched image plan w₀)
      (resumeApply workspace journal classifyTransition plan fail)
      (fun r s => r.planId = plan.id ∧ Finished image plan w₀ s) (Stopped image plan goal w₀) := by
  refine .bind (untouched_steady.observeAll hw) fun observed => ?_
  -- Once no path is foreign, the entries outside the paths to apply are done.
  have hstart : ∀ s : MutationSession ω ι,
      Untouched image plan w₀ s ∧ Agrees plan observed (image s.workspace) →
      pathsIn classifyTransition .foreign plan observed = [] →
        Underway image plan goal (pathsIn classifyTransition .preimage plan observed)
          plan.entries w₀ s := by
    intro s hs hf
    refine ⟨hs.1.track, fun hfor => ?_, hs.1.faults, fun _ e he => ?_⟩
    · exact foreign_of_hasForeign hc (hs.1.agrees hs.2) hfor hf
    · by_cases hmem : e.path ∈ pathsIn classifyTransition .preimage plan observed
      · exact .inl ⟨he, hmem⟩
      · exact .inr (done_of_not_mem hc hs.2 hf he hmem)
  obtain ⟨ps, hd, hps, hne⟩ | ⟨hf, ⟨hd, hpre⟩ | ⟨ps, hd, rfl, -⟩⟩ :=
    classifyPlan_cases classifyTransition plan observed
  · rw [hd]
    refine .bind (untouched_steady.and fun img => Agrees plan observed img).fence fun _ => ?_
    refine .fail fun s hs => hs.1.stopped fun hg => ?_
    exact hne (hps.trans (foreign_eq_nil_of_held hc hp (hs.1.agrees hs.2) (hgoal hg).1))
  · rw [hd]
    exact (applyAndVerify_spec hc hp hw hgoal).weaken (fun s hs => hpre ▸ hstart s hs hf)
      (fun _ _ hs => hs) fun _ hs => hs
  · rw [hd]
    exact (applyAndVerify_spec hc hp hw hgoal).weaken (fun s hs => hstart s hs hf)
      (fun _ _ hs => hs) fun _ hs => hs

/-- The scratch space that the workspace reports is enough for the plan. -/
def Ample (workspace : MutationWorkspace ω) (plan : SealedMutationPlan) : Prop :=
  ∀ w scratch w', workspace.scratchAvailable w = (.ok scratch, w') →
    ∀ n ∈ scratch, plan.totalPostimageBytes ≤ n

include hc hp hw in
theorem preflight_spec (hgoal : goal → Held image plan w₀ ∧ Ample workspace plan) :
    Triple (Untouched image plan w₀) (preflight (ι := ι) workspace classifyTransition plan)
      (fun observed s => Untouched image plan w₀ s ∧ Agrees plan observed (image s.workspace))
      (Stopped image plan goal w₀) := by
  refine .bind (untouched_steady.observeAll hw) fun observed => ?_
  have hst : Steady image (fun s : MutationSession ω ι => Untouched image plan w₀ s ∧
      Agrees plan observed (image s.workspace)) (Stopped image plan goal w₀) :=
    untouched_steady.and (Agrees plan observed)
  have hscratch : Triple (fun s : MutationSession ω ι => Untouched image plan w₀ s ∧
        Agrees plan observed (image s.workspace)) (onWorkspace workspace.scratchAvailable)
      (fun scratch s => (Untouched image plan w₀ s ∧ Agrees plan observed (image s.workspace)) ∧
        (goal → ∀ n ∈ scratch, plan.totalPostimageBytes ≤ n)) (Stopped image plan goal w₀) :=
    hst.operate (R := fun scratch _ => goal → ∀ n ∈ scratch, plan.totalPostimageBytes ≤ n)
      (fun p => hw.scratch_keeps rfl) fun p scratch hx hg =>
        (hgoal hg).2 p.1.workspace scratch _ (Prod.ext hx rfl)
  obtain ⟨ps, hd, hps, hne⟩ | ⟨-, ⟨hd, -⟩ | ⟨ps, hd, -, -⟩⟩ :=
    classifyPlan_cases classifyTransition plan observed
  · rw [hd]
    refine .fail fun s hs => hs.1.stopped fun hg => ?_
    exact hne (hps.trans (foreign_eq_nil_of_held hc hp (hs.1.agrees hs.2) (hgoal hg).1))
  all_goals
    rw [hd]
    refine .bind hscratch fun scratch => ?_
    split
    · rename_i hlow
      refine .fail fun s hs => hs.1.1.stopped fun hg => ?_
      cases scratch with
      | none => cases hlow
      | some n => exact absurd (hs.2 hg n rfl) (Nat.not_le.mpr (by simpa using hlow))
    · exact .pure fun _ hs => hs.1

include hc hp hw in
theorem executeWith_spec
    (hgoal : goal → Held image plan w₀ ∧ workspace.Installs image plan ∧ Ample workspace plan) :
    Triple (Untouched image plan w₀)
      (executeWith workspace journal classifyTransition plan fail)
      (fun r s => r.planId = plan.id ∧ Finished image plan w₀ s)
      (Stopped image plan goal w₀) := by
  have hheld (hg : goal) : Held image plan w₀ ∧ Ample workspace plan :=
    ⟨(hgoal hg).1, (hgoal hg).2.2⟩
  refine .bind (preflight_spec hc hp hw hheld) fun observed => ?_
  obtain ⟨ps, hd, hps, hne⟩ | ⟨hf, ⟨hd, hpre⟩ | ⟨ps, hd, -, -⟩⟩ :=
    classifyPlan_cases classifyTransition plan observed
  · rw [hd]
    refine .fail fun s hs => hs.1.stopped fun hg => ?_
    exact hne (hps.trans (foreign_eq_nil_of_held hc hp (hs.1.agrees hs.2) (hgoal hg).1))
  · rw [hd]
    refine Triple.weaken receipt_spec ?_ (fun _ _ hs => hs) fun _ hs => hs
    intro s hs
    refine ⟨hs.1.track, fun hfor => ?_, hs.1.faults, fun e he => ?_⟩
    · exact foreign_of_hasForeign hc (hs.1.agrees hs.2) hfor hf
    · exact done_of_not_mem hc hs.2 hf he (hpre ▸ List.not_mem_nil)
  · rw [hd]
    have hst : Steady image (Untouched (ι := ι) image plan w₀) (Stopped image plan goal w₀) :=
      untouched_steady
    refine .bind (hst.failAt.weaken (fun _ hs => hs.1) (fun _ _ hs => hs) fun _ hs => hs)
      fun _ => ?_
    refine .bind hst.onJournal fun _ => .bind hst.failAt fun _ => .bind hst.fence fun _ => ?_
    exact resumeApply_spec hc hp hw fun hg => ⟨(hgoal hg).1, (hgoal hg).2.1⟩

end

end MutationEngine

end SimAgentNet.RoadmapRunner
