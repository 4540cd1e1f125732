import Mathlib.Data.List.Range
import Parley.Proofs.Grid.Accounting

/-!
# The jobs that a source makes

A source makes its jobs one after another. A coordinator takes them in this order and numbers them,
so that the job that goes by an id is known from the id alone, as long as there are ids left.

* `JobSource.job`, `JobSource.take_eq` — the jobs of a source, by number;
* `Coordinator.Supplied.step`, `Coordinator.Run.supplied` — every job that is out or was handed out
  is the job of its number;
* `Coordinator.Accounted.existsUnique_made` — an id that was given out is the id of one job.
-/

namespace Parley

namespace JobSource

variable {γ : Type}

/-- The state of a source that has made some jobs. -/
def after (s : JobSource γ) (g : γ) : Nat → γ
  | 0 => g
  | k + 1 => (s.next (s.after g k)).2

/-- The jobs of a source, counted from zero. -/
def job (s : JobSource γ) (g : γ) (k : Nat) : Bytes :=
  (s.next (s.after g k)).1

theorem after_next (s : JobSource γ) (g : γ) (k : Nat) :
    s.after (s.next g).2 k = s.after g (k + 1) := by
  induction k with
  | zero => rfl
  | succ k ih =>
    show (s.next (s.after (s.next g).2 k)).2 = (s.next (s.after g (k + 1))).2
    rw [ih]

theorem take_eq (s : JobSource γ) (g : γ) (count : Nat) :
    s.take count g = (List.range count).map (s.job g) := by
  induction count generalizing g with
  | zero => rfl
  | succ count ih =>
    rw [take, ih, List.range_succ_eq_map, List.map_cons, List.map_map]
    congr 1
    apply List.map_congr_left
    intro k _
    show (s.next (s.after (s.next g).2 k)).1 = (s.next (s.after g (k + 1))).1
    rw [after_next]

end JobSource

namespace Coordinator

variable {γ : Type}

/-- The jobs of a coordinator are those of the source, numbered in order. -/
structure Supplied (origin : JobSource γ) (g : γ) (c : Coordinator γ) (ss : List Sight) :
    Prop where
  source : c.source = origin
  generator : c.generator = origin.after g (generated ss).length
  out : ∀ id j, c.job? id = some j → j.data = origin.job g id.toNat
  handed : ∀ s ∈ ss, ∀ j, s.handed = some j → j.data = origin.job g j.id.toNat

theorem supplied_new (config : GridConfig) (source : JobSource γ) (g : γ) :
    Supplied source g (new config source g) [] where
  source := rfl
  generator := rfl
  out := fun id j h => by simp [new, job?] at h
  handed := fun s h => by simp at h

variable {source : JobSource γ} {g : γ}

/-- A step that makes no job and brings no other data into those that are out. -/
theorem Supplied.of_same {c c' : Coordinator γ} {ss : List Sight} {s : Sight}
    (h : Supplied source g c ss) (hnew : s.isNew = false) (hsource : c'.source = c.source)
    (hgenerator : c'.generator = c.generator)
    (hout : ∀ id j, c'.job? id = some j → ∃ j', c.job? id = some j' ∧ j'.data = j.data)
    (hhanded : ∀ j, s.handed = some j → ∃ j', c.job? j.id = some j' ∧ j'.data = j.data) :
    Supplied source g c' (ss ++ [s]) := by
  have hgen := generated_snoc_of_not_new ss hnew
  refine ⟨hsource.trans h.source, ?_, ?_, ?_⟩
  · rw [hgen, hgenerator]
    exact h.generator
  · intro id j hj
    obtain ⟨j', hj', hdata⟩ := hout id j hj
    exact hdata ▸ h.out id j' hj'
  · intro s' hs' j hj
    rcases List.mem_append.mp hs' with hs' | hs'
    · exact h.handed s' hs' j hj
    · rw [List.mem_singleton] at hs'
      obtain ⟨j', hj', hdata⟩ := hhanded j (hs' ▸ hj)
      exact hdata ▸ h.out j.id j' hj'

/-- A new job is the next one of the source. -/
theorem Supplied.of_fresh {c : Coordinator γ} {ss : List Sight} (h : Supplied source g c ss)
    (ha : Accounted c ss) (now : Nat) (few : (generated ss).length < idCount) :
    Supplied source g (c.generate now).2 (ss ++ [.handing (c.generate now).1 true]) := by
  have hid : (c.generate now).1.id.toNat = (generated ss).length := by
    show c.nextId.toNat = _
    rw [ha.nextId]
    exact UInt32.toNat_ofNat_of_lt' few
  have hdata : (c.generate now).1.data = source.job g (c.generate now).1.id.toNat := by
    rw [hid, JobSource.job, ← h.generator, ← h.source]
    rfl
  refine ⟨h.source, ?_, ?_, ?_⟩
  · rw [generated_snoc_fresh, List.length_append]
    show (c.source.next c.generator).2 = _
    rw [h.source, h.generator]
    rfl
  · intro id j hj
    rw [c.job?_generate now] at hj
    by_cases heq : id = c.nextId
    · rw [if_pos heq] at hj
      cases hj
      rw [heq]
      exact hdata
    · rw [if_neg heq] at hj
      exact h.out id j hj
  · intro s hs j hj
    rcases List.mem_append.mp hs with hs | hs
    · exact h.handed s hs j hj
    · rw [List.mem_singleton] at hs
      subst hs
      cases hj
      exact hdata

/-- One step keeps to the source, as long as there are ids left. -/
theorem Supplied.step {c c' : Coordinator γ} {ss : List Sight} {s : Sight}
    (h : Supplied source g c ss) (ha : Accounted c ss) (hs : Step c s c')
    (few : (generated (ss ++ [s])).length ≤ idCount) : Supplied source g c' (ss ++ [s]) := by
  have hsame : ∀ id j, c.job? id = some j → ∃ j', c.job? id = some j' ∧ j'.data = j.data :=
    fun _ j hj => ⟨j, hj, rfl⟩
  have hretired : ∀ id other j, (c.retire id).job? other = some j →
      ∃ j', c.job? other = some j' ∧ j'.data = j.data := by
    intro id other j hj
    by_cases hne : other = id
    · simp [hne] at hj
    · rw [c.job?_retire_of_ne hne] at hj
      exact ⟨j, hj, rfl⟩
  cases hs with
  | quiet => exact h.of_same rfl rfl rfl hsame (by simp [Sight.nothing])
  | requeued now => exact h.of_same rfl rfl rfl hsame (by simp [Sight.nothing])
  | failed out tries absent => exact h.of_same rfl rfl rfl hsame (by simp [Sight.nothing])
  | @again j rest now found =>
    obtain ⟨_, _, hout, _⟩ := takeResend_eq_some found
    refine h.of_same rfl rfl rfl ?_ ?_
    · intro id j' hj'
      by_cases hid : id = j.id
      · subst hid
        have hself := job?_putJob_self { c with resend := rest } (j.handOut now)
        cases hself.symm.trans hj'
        exact ⟨j, hout, rfl⟩
      · rw [job?_putJob_of_ne _ (j.handOut now) hid] at hj'
        exact ⟨j', hj', rfl⟩
    · rintro _ ⟨⟩
      exact ⟨j, hout, rfl⟩
  | fresh now empty =>
    refine h.of_fresh ha now ?_
    rw [generated_snoc, List.length_append] at few
    exact few
  | @reported r j out => exact h.of_same rfl rfl rfl (hretired r.job) (by simp)
  | @givenUp id j out tries => exact h.of_same rfl rfl rfl (hretired id) (by simp)

/-- A whole run keeps to the source. -/
theorem Run.supplied {c₀ c : Coordinator γ} {ss ss₀ : List Sight} (hr : Run c₀ ss c)
    (h : Supplied source g c₀ ss₀) (ha : Accounted c₀ ss₀)
    (few : (generated (ss₀ ++ ss)).length ≤ idCount) : Supplied source g c (ss₀ ++ ss) := by
  induction hr with
  | nil => simpa using h
  | @snoc ss s c c' hr hs ih =>
    rw [← List.append_assoc] at few ⊢
    have fewBefore := Nat.le_trans (length_generated_le_snoc _ s) few
    exact (ih fewBefore).step (hr.accounted ha fewBefore) hs few

/-- Any calls from the start keep to the source. -/
theorem supplied_after (config : GridConfig) (source : JobSource γ) (g : γ) {calls : List Call}
    (few : (generated ((new config source g).sights calls)).length ≤ idCount) :
    Supplied source g ((new config source g).after calls) ((new config source g).sights calls) := by
  simpa using (run_sights (new config source g) calls).supplied (supplied_new config source g)
    (accounted_new config source g) (by simpa using few)

/-! ## The jobs that were made -/

/-- The job that was made for a call, if one was. -/
def Sight.made? (s : Sight) : Option Job :=
  if s.isNew then s.handed else none

/-- The jobs that were made, as they went out for the first time, the oldest first. -/
def made (ss : List Sight) : List Job :=
  ss.filterMap (·.made?)

theorem map_id_made (ss : List Sight) : (made ss).map (·.id) = generated ss := by
  unfold made generated
  rw [List.map_filterMap]
  congr 1
  funext s
  unfold Sight.made? Sight.generated?
  split <;> rfl

theorem Supplied.data_of_mem_made {c : Coordinator γ} {ss : List Sight}
    (h : Supplied source g c ss) {j : Job} (hj : j ∈ made ss) :
    j.data = source.job g j.id.toNat := by
  obtain ⟨s, hs, hmade⟩ := List.mem_filterMap.mp hj
  unfold Sight.made? at hmade
  split at hmade
  · exact h.handed s hs j hmade
  · cases hmade

/-- The jobs that were made are what the source made, in order. -/
theorem Supplied.map_data_made {c : Coordinator γ} {ss : List Sight}
    (h : Supplied source g c ss) (ha : Accounted c ss) (few : (generated ss).length ≤ idCount) :
    (made ss).map (·.data) = source.take (made ss).length g := by
  have hlength : (made ss).length = (generated ss).length := by
    rw [← map_id_made, List.length_map]
  calc (made ss).map (·.data)
      = (made ss).map fun j => source.job g j.id.toNat := by
        apply List.map_congr_left
        intro j hj
        exact h.data_of_mem_made hj
    _ = (generated ss).map fun id => source.job g id.toNat := by
        rw [← map_id_made, List.map_map]
        rfl
    _ = (List.range (generated ss).length).map (source.job g) := by
        rw [ha.ids, List.map_map, List.length_map, List.length_range]
        apply List.map_congr_left
        intro k hk
        have hlt : k < idCount := Nat.lt_of_lt_of_le (List.mem_range.mp hk) few
        show source.job g (UInt32.ofNat k).toNat = source.job g k
        rw [UInt32.toNat_ofNat_of_lt' hlt]
    _ = source.take (made ss).length g := by
        rw [JobSource.take_eq, hlength]

/-- An id that was given out is the id of one job. -/
theorem Accounted.existsUnique_made {c : Coordinator γ} {ss : List Sight} (h : Accounted c ss)
    (few : (generated ss).length ≤ idCount) {id : JobId} (hid : id ∈ generated ss) :
    ∃! j, j ∈ made ss ∧ j.id = id := by
  have hnodup : ((made ss).map (·.id)).Nodup := by
    rw [map_id_made]
    exact h.nodup few
  rw [← map_id_made] at hid
  obtain ⟨j, hj, rfl⟩ := List.mem_map.mp hid
  refine ⟨j, ⟨hj, rfl⟩, ?_⟩
  rintro j' ⟨hj', heq⟩
  exact List.inj_on_of_nodup_map hnodup hj' hj heq

end Coordinator

end Parley
