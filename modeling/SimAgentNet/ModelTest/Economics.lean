import SimAgentNet.Data.SortedMap
import SimAgentNet.Kernel.Datum

/-! # Reconciling provider usage

The pages of a provider are read in one pass that expects the page that the last one names. A page
that names none lets the next number follow, and no page is remembered. -/

namespace SimAgentNet.ModelTest
variable {Event : Type}

structure ProviderUsagePage (Event : Type) where
  page : UInt32
  nextPage : Option UInt32
  launchStartMs : UInt64
  launchEndMs : UInt64
  exactModelId : String
  billableResponse : Bool
  requestId : Option String
  resourceEvents : List Event
  concurrentUnrelatedActivity : Bool
  balanceDeltaMinor : Option UInt64
deriving DecidableEq

inductive Reconciliation (Event : Type) where
  | exact (events : List Event)
  | unreconciled (reasons : SortedSet Symbol)
deriving DecidableEq

/-- The next number, if there is one. -/
def saturatingSucc (n : UInt32) : UInt32 := if n.toNat + 1 < 2 ^ 32 then n + 1 else n

/-- The number of the page that is expected after this one. -/
def ProviderUsagePage.follow (page : ProviderUsagePage Event) : UInt32 :=
  page.nextPage.getD (saturatingSucc page.page)

/-- Adds a reason if it holds. -/
def note (holds : Prop) [Decidable holds] (reason : String) (reasons : SortedSet Symbol) :
    SortedSet Symbol :=
  if holds then reasons.insert (.new reason) else reasons

/-- What the loop carries from page to page. -/
structure Tally (Event : Type) where
  reasons : SortedSet Symbol
  expectedPage : UInt32
  events : List Event

section
variable (launchStartMs launchEndMs : UInt64) (exactModelId : String)

def readPage (t : Tally Event) (page : ProviderUsagePage Event) : Tally Event where
  reasons := t.reasons
    |> note (page.page ≠ t.expectedPage) "pagination-gap"
    |> note (page.launchStartMs < launchStartMs ∨ page.launchEndMs > launchEndMs)
      "outside-launch-interval"
    |> note (page.exactModelId ≠ exactModelId) "model-id-mismatch"
    |> note (page.billableResponse ∧ page.requestId.all (·.isEmpty)) "missing-request-id"
    |> note page.concurrentUnrelatedActivity "concurrent-unrelated-activity"
    |> note (page.balanceDeltaMinor.isSome ∧ page.resourceEvents.isEmpty) "balance-delta-only"
  expectedPage := page.follow
  events := t.events ++ page.resourceEvents

def reconcileProviderUsage (pages : List (ProviderUsagePage Event)) : Reconciliation Event :=
  let t := pages.foldl (readPage launchStartMs launchEndMs exactModelId) ⟨∅, 0, []⟩
  let reasons := note (pages.getLast?.any (·.nextPage.isSome)) "pagination-incomplete" t.reasons
  if reasons = ∅ then .exact t.events else .unreconciled reasons

/-- Nothing on the page itself is a reason. -/
structure Clean (page : ProviderUsagePage Event) : Prop where
  start : launchStartMs ≤ page.launchStartMs
  stop : page.launchEndMs ≤ launchEndMs
  model : page.exactModelId = exactModelId
  request : page.billableResponse = true → ∃ id, page.requestId = some id ∧ id ≠ ""
  alone : page.concurrentUnrelatedActivity = false
  backed : page.balanceDeltaMinor ≠ none → page.resourceEvents ≠ []

end

/-! ## What is accepted -/

section
variable {launchStartMs launchEndMs : UInt64} {exactModelId : String}
  {pages : List (ProviderUsagePage Event)} {page : ProviderUsagePage Event}

theorem note_eq_empty_iff {holds : Prop} [Decidable holds] {reason : String}
    {reasons : SortedSet Symbol} : note holds reason reasons = ∅ ↔ reasons = ∅ ∧ ¬holds := by
  unfold note
  by_cases h : holds
  · rw [if_pos h]
    refine iff_of_false (fun hempty => ?_) fun hboth => hboth.2 h
    have hmem : Symbol.new reason ∈ reasons.insert (.new reason) := SortedSet.mem_insert.mpr (.inl rfl)
    rw [hempty] at hmem
    exact SortedSet.not_mem_empty _ hmem
  · rw [if_neg h, and_iff_left h]

theorem readPage_reasons_iff {t : Tally Event} :
    (readPage launchStartMs launchEndMs exactModelId t page).reasons = ∅ ↔
      t.reasons = ∅ ∧ page.page = t.expectedPage ∧
        Clean launchStartMs launchEndMs exactModelId page := by
  simp only [readPage, note_eq_empty_iff, not_or, not_not, not_and]
  constructor
  · rintro ⟨⟨⟨⟨⟨⟨hreasons, hpage⟩, hstart, hstop⟩, hmodel⟩, hrequest⟩, halone⟩, hbacked⟩
    refine ⟨hreasons, hpage, ⟨UInt64.not_lt.mp hstart, UInt64.not_lt.mp hstop, hmodel, ?_, ?_, ?_⟩⟩
    · intro hbillable
      cases hid : page.requestId with
      | none => exact absurd (by rw [hid]; rfl) (hrequest hbillable)
      | some id =>
        refine ⟨id, rfl, fun hempty => hrequest hbillable ?_⟩
        rw [hid, hempty]
        rfl
    · exact Bool.eq_false_iff.mpr halone
    · intro hdelta hnil
      exact hbacked (Option.isSome_iff_ne_none.mpr hdelta) (List.isEmpty_iff.mpr hnil)
  · rintro ⟨hreasons, hpage, hclean⟩
    refine ⟨⟨⟨⟨⟨⟨hreasons, hpage⟩, UInt64.not_lt.mpr hclean.start, UInt64.not_lt.mpr hclean.stop⟩,
      hclean.model⟩, ?_⟩, ?_⟩, ?_⟩
    · intro hbillable
      obtain ⟨id, hid, hne⟩ := hclean.request hbillable
      rw [hid, Option.all_some]
      simpa using hne
    · rw [hclean.alone]
      exact Bool.false_ne_true
    · intro hdelta hnil
      exact hclean.backed (Option.isSome_iff_ne_none.mp hdelta) (List.isEmpty_iff.mp hnil)

/-- The page numbers follow the running expectation. -/
def Follows (expected : UInt32) : List (ProviderUsagePage Event) → Prop
  | [] => True
  | page :: pages => page.page = expected ∧ Follows page.follow pages

theorem foldl_readPage (launchStartMs launchEndMs : UInt64) (exactModelId : String)
    (pages : List (ProviderUsagePage Event)) (t : Tally Event) :
    ((pages.foldl (readPage launchStartMs launchEndMs exactModelId) t).reasons = ∅ ↔
      t.reasons = ∅ ∧ Follows t.expectedPage pages ∧
        ∀ page ∈ pages, Clean launchStartMs launchEndMs exactModelId page) ∧
    (pages.foldl (readPage launchStartMs launchEndMs exactModelId) t).events =
      t.events ++ pages.flatMap (·.resourceEvents) := by
  induction pages generalizing t with
  | nil => simp [Follows]
  | cons page pages ih =>
    obtain ⟨hreasons, hevents⟩ := ih (readPage launchStartMs launchEndMs exactModelId t page)
    rw [List.foldl_cons, hreasons, hevents, readPage_reasons_iff]
    refine ⟨?_, ?_⟩
    · simp only [Follows, List.forall_mem_cons, readPage]
      tauto
    · simp only [readPage, List.flatMap_cons, List.append_assoc]

theorem reconcile_eq_exact_iff {events : List Event} :
    reconcileProviderUsage launchStartMs launchEndMs exactModelId pages = .exact events ↔
      (Follows 0 pages ∧ (∀ page ∈ pages, Clean launchStartMs launchEndMs exactModelId page) ∧
        ∀ page, pages.getLast? = some page → page.nextPage = none) ∧
        events = pages.flatMap (·.resourceEvents) := by
  obtain ⟨hreasons, hevents⟩ :=
    foldl_readPage launchStartMs launchEndMs exactModelId pages ⟨∅, 0, []⟩
  have hlast : (¬pages.getLast?.any (·.nextPage.isSome) = true) ↔
      ∀ page, pages.getLast? = some page → page.nextPage = none := by
    cases pages.getLast? with
    | none => simp
    | some page => simp
  rw [← hlast]
  have hempty : note (pages.getLast?.any (·.nextPage.isSome)) "pagination-incomplete"
      (pages.foldl (readPage launchStartMs launchEndMs exactModelId) ⟨∅, 0, []⟩).reasons = ∅ ↔
        Follows 0 pages ∧ (∀ page ∈ pages, Clean launchStartMs launchEndMs exactModelId page) ∧
          ¬pages.getLast?.any (·.nextPage.isSome) = true := by
    rw [note_eq_empty_iff, hreasons, eq_self, true_and, and_assoc]
  rw [← hempty, reconcileProviderUsage]
  by_cases h : note (pages.getLast?.any (·.nextPage.isSome)) "pagination-incomplete"
      (pages.foldl (readPage launchStartMs launchEndMs exactModelId) ⟨∅, 0, []⟩).reasons = ∅
  · rw [if_pos h, and_iff_right h, hevents, List.nil_append, Reconciliation.exact.injEq, eq_comm]
  · rw [if_neg h]
    exact iff_of_false nofun fun hboth => h hboth.1

/-! ## Exactly once -/

/-- Each page is there once, every page but the last one names the next, and the events are those
of the pages. -/
structure Whole (pages : List (ProviderUsagePage Event)) (events : List Event) : Prop where
  distinct : (pages.map (·.page)).Nodup
  complete : ∀ page, pages.getLast? = some page → page.nextPage = none
  linked : pages.IsChain fun page next => page.nextPage = some next.page
  counted : events = pages.flatMap (·.resourceEvents)

/-- Each page that another one comes after names a next page, and one that was not seen so far. -/
def Onward (seen : List UInt32) : List (ProviderUsagePage Event) → Prop
  | page :: next :: pages =>
    (∃ n, page.nextPage = some n ∧ n ∉ page.page :: seen) ∧
      Onward (page.page :: seen) (next :: pages)
  | _ => True

theorem Follows.onward_iff {expected : UInt32} {seen : List UInt32} (h : Follows expected pages)
    (hnew : pages ≠ [] → expected ∉ seen) :
    Onward seen pages ↔ (pages.IsChain fun page next => page.nextPage = some next.page) ∧
      (pages.map (·.page)).Nodup ∧ ∀ page ∈ pages, page.page ∉ seen := by
  induction pages generalizing expected seen with
  | nil => simp [Onward]
  | cons page pages ih =>
    have hfirst := hnew (List.cons_ne_nil _ _)
    rw [← h.1] at hfirst
    cases pages with
    | nil => simpa [Onward] using hfirst
    | cons next pages =>
      obtain ⟨-, hnext, hrest⟩ := h
      rw [Onward, List.isChain_cons_cons, List.map_cons, List.nodup_cons, List.forall_mem_cons]
      constructor
      · rintro ⟨⟨n, hn, hunseen⟩, honward⟩
        have hfollow : page.follow = n := by
          rw [ProviderUsagePage.follow, hn, Option.getD_some]
        obtain ⟨hlinked, hdistinct, hall⟩ :=
          (ih ⟨hnext, hrest⟩ fun _ => hfollow ▸ hunseen).mp honward
        refine ⟨⟨by rw [hn, hnext, hfollow], hlinked⟩, ⟨fun hmem => ?_, hdistinct⟩, hfirst, ?_⟩
        · obtain ⟨page', hmem, hpage⟩ := List.mem_map.mp hmem
          exact hall page' hmem (hpage ▸ List.mem_cons_self)
        · intro page' hmem hseen
          exact hall page' hmem (List.mem_cons_of_mem _ hseen)
      · rintro ⟨⟨hn, hlinked⟩, ⟨hdistinct, hdistinct'⟩, -, hall⟩
        have hunseen : ∀ page' ∈ next :: pages, page'.page ∉ page.page :: seen := by
          intro page' hmem hseen
          obtain heq | hseen := List.mem_cons.mp hseen
          · exact hdistinct (List.mem_map.mpr ⟨page', hmem, heq⟩)
          · exact hall page' hmem hseen
        have hfollow := hnext ▸ hunseen next List.mem_cons_self
        exact ⟨⟨next.page, hn, hunseen next List.mem_cons_self⟩,
          (ih ⟨hnext, hrest⟩ fun _ => hfollow).mpr ⟨hlinked, hdistinct', hunseen⟩⟩

/-- What is exact is counted once, exactly when the pages of an accepted list go on to pages that
were not seen. -/
theorem reconcile_exact_iff (launchStartMs launchEndMs : UInt64) (exactModelId : String)
    (pages : List (ProviderUsagePage Event)) :
    (∀ events, reconcileProviderUsage launchStartMs launchEndMs exactModelId pages = .exact events →
        Whole pages events) ↔
      (Follows 0 pages ∧ (∀ page ∈ pages, Clean launchStartMs launchEndMs exactModelId page) ∧
        (∀ page, pages.getLast? = some page → page.nextPage = none) → Onward [] pages) := by
  constructor
  · intro h haccepted
    have hwhole := h _ (reconcile_eq_exact_iff.mpr ⟨haccepted, rfl⟩)
    exact (haccepted.1.onward_iff fun _ => List.not_mem_nil).mpr
      ⟨hwhole.linked, hwhole.distinct, fun _ _ => List.not_mem_nil⟩
  · intro h events hexact
    obtain ⟨haccepted, hevents⟩ := reconcile_eq_exact_iff.mp hexact
    obtain ⟨hlinked, hdistinct, -⟩ :=
      (haccepted.1.onward_iff fun _ => List.not_mem_nil).mp (h haccepted)
    exact ⟨hdistinct, haccepted.2.2, hlinked, hevents⟩

end

namespace Sample

def page (number : UInt32) (next : Option UInt32) : ProviderUsagePage String :=
  ⟨number, next, 0, 10, "model", true, some "request", ["event"], false, none⟩

end Sample

/-- A page that names itself, and comes again as the last one: its event is counted twice. -/
theorem page_counted_twice :
    let pages := [Sample.page 0 (some 0), Sample.page 0 none]
    reconcileProviderUsage 0 10 "model" pages = .exact ["event", "event"] ∧
      ¬Whole pages ["event", "event"] := by
  refine ⟨by decide +kernel, fun h => absurd h.distinct (by decide +kernel)⟩

end SimAgentNet.ModelTest
