import Jefferies.Collections.Pages
import Jefferies.Coordination.Permanence
import Jefferies.Server.Tenants

/-!
# Listings in pages

A listing is sorted by one column, and each page of it is a query of its own. Which of the runs that tie comes first, the
database decides anew for each page.
-/

namespace Jefferies.RunHistory

open Pages

/-- A column of times keeps microseconds. -/
def DateTime.micros (t : DateTime) : Int := t.instant / 1000

variable {κ : Type} {le : κ → κ → Bool}

/-- `ASC` or `DESC`. -/
def SortOrder.directs (le : κ → κ → Bool) : SortOrder → κ → κ → Bool
  | .asc => le
  | .desc => fun a b => le b a

/-- `NULLS LAST`. -/
def nullsLast (le : κ → κ → Bool) : Option κ → Option κ → Bool
  | _, none => true
  | none, some _ => false
  | some a, some b => le a b

/-- `ORDER BY`; `collation` is how the database compares texts. -/
def PipelineRunRow.precedes (collation : String → String → Bool) (column : SortColumn) (order : SortOrder)
    (row row' : PipelineRunRow) : Bool :=
  match column with
  | .createdAt => order.directs (fun t t' : Int => t ≤ t') row.createdAt.micros row'.createdAt.micros
  | .completedAt =>
      nullsLast (order.directs fun t t' : Int => t ≤ t') (row.completedAt.map DateTime.micros)
        (row'.completedAt.map DateTime.micros)
  | .pipelineName => order.directs collation row.pipelineName row'.pipelineName
  | .owner => order.directs collation row.owner row'.owner
  | .status => order.directs collation row.status.asStr row'.status.asStr

theorem isOrder_directs (h : IsOrder le) (order : SortOrder) : IsOrder (order.directs le) := by
  cases order with
  | asc => exact h
  | desc => exact ⟨fun a b => h.total b a, fun a b c hab hbc => h.trans c b a hbc hab⟩

theorem isOrder_nullsLast (h : IsOrder le) : IsOrder (nullsLast le) where
  total a b := by
    cases a with
    | none => exact .inr (by cases b <;> rfl)
    | some a =>
        cases b with
        | none => exact .inl rfl
        | some b => exact h.total a b
  trans a b c hab hbc := by
    cases c with
    | none => cases a <;> rfl
    | some c =>
        cases b with
        | none => cases hbc
        | some b =>
            cases a with
            | none => cases hab
            | some a => exact h.trans a b c hab hbc

theorem isOrder_comap {ρ : Type} (h : IsOrder le) (f : ρ → κ) : IsOrder fun a b => le (f a) (f b) :=
  ⟨fun _ _ => h.total _ _, fun _ _ _ hab hbc => h.trans _ _ _ hab hbc⟩

theorem isOrder_int : IsOrder fun t t' : Int => decide (t ≤ t') where
  total t t' := by
    simp only [decide_eq_true_eq]
    omega
  trans t t' t'' h h' := by
    simp only [decide_eq_true_eq] at h h' ⊢
    omega

theorem isOrder_precedes {collation : String → String → Bool} (h : IsOrder collation) (column : SortColumn)
    (order : SortOrder) : IsOrder (PipelineRunRow.precedes collation column order) := by
  cases column with
  | createdAt => exact isOrder_comap (isOrder_directs isOrder_int order) _
  | completedAt => exact isOrder_comap (isOrder_nullsLast (isOrder_directs isOrder_int order)) _
  | pipelineName => exact isOrder_comap (isOrder_directs h order) _
  | owner => exact isOrder_comap (isOrder_directs h order) _
  | status => exact isOrder_comap (isOrder_directs h order) _

end Jefferies.RunHistory

namespace Jefferies.Server

open Pages RunHistory Coordination Interaction Transition Deployment
open scoped List

variable {slug : String} {params : ListRunsParams} {query : ListRunsQuery}

/-- A page has between 1 and 200 runs. -/
theorem listRunsQuery_limit (h : listRunsQuery slug params = some query) : 1 ≤ query.limit ∧ query.limit ≤ 200 := by
  obtain ⟨sortBy, _, h⟩ := Option.bind_eq_some_iff.mp h
  obtain ⟨order, _, h⟩ := Option.bind_eq_some_iff.mp h
  cases h
  dsimp only
  omega

/-- The request for another part of the listing. -/
def ListRunsParams.from (params : ListRunsParams) (offset : Int) : ListRunsParams := { params with offset := some offset }

theorem listRunsQuery_from (h : listRunsQuery slug params = some query) (offset : Int) :
    listRunsQuery slug (params.from offset) = some { query with offset := max offset 0 } := by
  obtain ⟨sortBy, hsortBy, h⟩ := Option.bind_eq_some_iff.mp h
  obtain ⟨order, horder, h⟩ := Option.bind_eq_some_iff.mp h
  cases h
  simp [listRunsQuery, ListRunsParams.from, hsortBy, horder]

/-- The runs that a response shows. -/
def Payload.shown : Payload → List PipelineRunRow
  | .runs rows _ => rows
  | _ => []

/-- The runs that a query is about. -/
def listed (history : PostgresRunHistory) (query : ListRunsQuery) : List PipelineRunRow :=
  history.pipelineRuns.filter (PostgresRunHistory.filterWhere query.filters)

/-- The response to the request for a page. -/
def pageResponse (parseRunId : String → Option String) (w : Backends) (slug : String) (params : ListRunsParams)
    (offset : Int) : ApiResponse :=
  ((listRuns slug (params.from offset) ()).against (Backends.answer parseRunId) fun _ => w).2.2

theorem pageResponse_eq {parseRunId : String → Option String} {w : Backends} (hw : w.historyFails = none)
    (hquery : listRunsQuery slug params = some query) (i : Nat) :
    pageResponse parseRunId w slug params (i * query.limit) =
      ⟨200, .runs (page query.limit.toNat (w.sort query.sortBy query.order (listed w.history query)) i)
        (listed w.history query).length⟩ := by
  have hlimit := (listRunsQuery_limit hquery).1
  have hoffset : (max (i * query.limit) 0).toNat = i * query.limit.toNat := by
    have hnonneg : 0 ≤ (i : Int) * query.limit := Int.mul_nonneg (by omega) (by omega)
    rw [max_eq_left hnonneg, Int.toNat_mul (by omega) (by omega), Int.toNat_natCast]
  have hlist : w.answer parseRunId (.listPipelineRuns { query with offset := max (i * query.limit) 0 }) =
      .ok (page query.limit.toNat (w.sort query.sortBy query.order (listed w.history query)) i) := by
    simp only [Backends.answer, Backends.statement, hw, PostgresRunHistory.listPipelineRuns, hoffset]
    rfl
  have hcount : w.answer parseRunId (.countPipelineRuns query.filters) = .ok (listed w.history query).length := by
    simp only [Backends.answer, Backends.statement, hw]
    rfl
  simp only [pageResponse, listRuns, listRunsQuery_from hquery, against_perform, hlist, hcount]
  rfl

theorem pageResponse_shown {parseRunId : String → Option String} {w : Backends} (hw : w.historyFails = none)
    (hquery : listRunsQuery slug params = some query) (i : Nat) :
    (pageResponse parseRunId w slug params (i * query.limit)).payload.shown =
      page query.limit.toNat (w.sort query.sortBy query.order (listed w.history query)) i := by
  rw [pageResponse_eq hw hquery]
  rfl

/-- Backends that sort by the list that they are given. -/
def Backends.sorting (history : PostgresRunHistory) (rows : List PipelineRunRow) : Backends :=
  { Backends.bare history with sort := fun _ _ _ => rows }

/-- In every run of the servers, as long as the history stays as it is: the pages of a listing have every run of it
exactly once, however the database breaks ties, if and only if no boundary between pages falls inside a group of runs
that tie. Every page says how many runs there are. -/
theorem pages_exact_iff {d : Deployment} {h : List Event} {σ : Servers} (hr : d.Runs h σ)
    {collation : String → String → Bool} (hcollation : IsOrder collation)
    (hquery : listRunsQuery slug params = some query) {k : Nat}
    (hk : (listed σ.world.history query).length ≤ k * query.limit.toNat) :
    ((∀ ws : Nat → Backends, (∀ i, (ws i).history = σ.world.history ∧ (ws i).historyFails = none ∧
        Sorts (PipelineRunRow.precedes collation query.sortBy query.order) (listed σ.world.history query)
          ((ws i).sort query.sortBy query.order (listed σ.world.history query))) →
      ((List.range k).flatMap fun i =>
        (pageResponse d.parseRunId (ws i) slug params (i * query.limit)).payload.shown) ~ listed σ.world.history query) ↔
      ∀ i, Clean (PipelineRunRow.precedes collation query.sortBy query.order) (listed σ.world.history query)
        (i * query.limit.toNat)) ∧
    ∀ w : Backends, w.history = σ.world.history → w.historyFails = none → ∀ i : Nat, ∃ rows,
      pageResponse d.parseRunId w slug params (i * query.limit) =
        ⟨200, .runs rows (listed σ.world.history query).length⟩ ∧ rows.length ≤ query.limit.toNat := by
  have hlimit := (listRunsQuery_limit hquery).1
  have hnodup : (listed σ.world.history query).Nodup := (runs_sound hr).1.runs.of_map.filter _
  rw [← pages_perm_iff (isOrder_precedes hcollation _ _) hnodup (by omega) hk]
  refine ⟨⟨fun hpages ls hls => ?_, fun hpages ws hws => ?_⟩, ?_⟩
  · have hperm := hpages (fun i => .sorting σ.world.history (ls i)) fun i => ⟨rfl, rfl, hls i⟩
    have hshown : ∀ i : Nat, (pageResponse d.parseRunId (.sorting σ.world.history (ls i)) slug params
        (i * query.limit)).payload.shown = page query.limit.toNat (ls i) i :=
      fun i => pageResponse_shown rfl hquery i
    simpa only [hshown] using hperm
  · have hperm := hpages (fun i => (ws i).sort query.sortBy query.order (listed σ.world.history query))
      fun i => (hws i).2.2
    have hshown : ∀ i : Nat, (pageResponse d.parseRunId (ws i) slug params (i * query.limit)).payload.shown =
        page query.limit.toNat ((ws i).sort query.sortBy query.order (listed σ.world.history query)) i := by
      intro i
      obtain ⟨hhistory, hfails, _⟩ := hws i
      rw [pageResponse_shown hfails hquery, hhistory]
    simpa only [hshown] using hperm
  · intro w hhistory hfails i
    refine ⟨_, by rw [pageResponse_eq hfails hquery, hhistory], ?_⟩
    exact List.length_take_le _ _

/-- The first page of a tenant's runs, latest first. -/
def firstPage (slug : String) : ListRunsQuery := ⟨50, 0, .createdAt, .desc, ⟨some slug, none, none, none⟩⟩

/-- The listing of the tenant whose one run a server has started, in a database that compares texts by their letters. -/
theorem pages_exact_iff_begun : ∃ h σ, buildAndTest.Runs h σ ∧
    listRunsQuery "acme" ⟨none, none, none, none, none, none, none⟩ = some (firstPage "acme") ∧
    (listed σ.world.history (firstPage "acme")).length = 1 ∧
    ((List.range 1).flatMap fun i => (pageResponse some (.bare σ.world.history) "acme"
      ⟨none, none, none, none, none, none, none⟩ (i * (firstPage "acme").limit)).payload.shown) ~
        listed σ.world.history (firstPage "acme") := by
  obtain ⟨h, σ, hr, hcheck⟩ := buildAndTest.exists_runs (begun "7d444840-9dc0-11d1-b245-5ffdce74fad2")
    (fun a => (listed a.2.world.history (firstPage "acme")).length = 1) (by decide +kernel)
  simp only [decide_eq_true_eq] at hcheck
  have hquery : listRunsQuery "acme" ⟨none, none, none, none, none, none, none⟩ = some (firstPage "acme") := rfl
  have hcollation : IsOrder fun a b : String => decide (a ≤ b) := by
    constructor
    · intro a b
      simpa using le_total a b
    · intro a b c hab hbc
      simpa using (of_decide_eq_true hab).trans (of_decide_eq_true hbc)
  have hexact := (pages_exact_iff hr hcollation hquery (k := 1) (by rw [hcheck]; decide)).1.mpr (by
    rintro i a _ ⟨hbefore, hupTo⟩
    have hlt := hupTo.trans_le List.countP_le_length
    rw [hcheck] at hlt
    omega)
  refine ⟨h, σ, hr, hquery, hcheck, hexact (fun _ => .bare σ.world.history) fun _ => ⟨rfl, rfl, .refl _, ?_⟩⟩
  obtain ⟨row, hrow⟩ := List.length_eq_one_iff.mp hcheck
  rw [hrow]
  exact List.pairwise_singleton _ _

end Jefferies.Server
