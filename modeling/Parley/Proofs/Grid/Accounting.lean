import Mathlib.Data.List.Nodup
import Parley.Proofs.Grid.Steps

/-!
# Every job is accounted for

The account of a run is read off what was seen of it: the jobs that were made, the events, and the
results that came for jobs that were out. As long as no more jobs are made than there are ids, the
account and the coordinator agree (`Accounted`): every job that was made is out and nothing came
for it, was reported once with its first result, or was given up once without one.

* `Accounted.step`, `Run.accounted` — one step and a whole run keep the account;
* `Gone.step` — a job that is not out any more stays so, and is not handed out;
* `every_job_settles_once` — both together, for calls in any order.
-/

namespace Parley

namespace Coordinator

variable {γ : Type}

/-- Number of job ids. -/
def idCount : Nat := 4294967296

/-- The job that the source made for a call, if it made one. -/
def Sight.generated? (s : Sight) : Option JobId :=
  if s.isNew then s.handed.map (·.id) else none

/-- The jobs that were made, the oldest first. -/
def generated (ss : List Sight) : List JobId :=
  ss.filterMap (·.generated?)

/-- The events, the oldest first. -/
def events (ss : List Sight) : List JobEvent :=
  ss.filterMap (·.event)

/-- The events about one job. -/
def eventsOf (ss : List Sight) (id : JobId) : List JobEvent :=
  (events ss).filter (·.job == id)

/-- The first result that came for a job while it was out. -/
def firstFinding? (ss : List Sight) (id : JobId) : Option Finding :=
  (ss.filterMap (·.finding)).find? (·.job == id)

/-- Where a job that was made can stand. -/
inductive Standing
  | outstanding
  | reported
  | givenUp
deriving DecidableEq, Repr

/-- A job stands so. -/
def Standing.Holds (c : Coordinator γ) (ss : List Sight) (id : JobId) : Standing → Prop
  | outstanding => (c.job? id).isSome ∧ eventsOf ss id = [] ∧ firstFinding? ss id = none
  | reported =>
    c.job? id = none ∧
      ∃ r, firstFinding? ss id = some r ∧ eventsOf ss id = [.reported id r.correct r.data]
  | givenUp =>
    c.job? id = none ∧ eventsOf ss id = [.givenUp id] ∧ firstFinding? ss id = none

/-- A job stands in one place only. -/
theorem Standing.Holds.unique {c : Coordinator γ} {ss : List Sight} {id : JobId} {k k' : Standing}
    (h : k.Holds c ss id) (h' : k'.Holds c ss id) : k = k' := by
  cases k <;> cases k' <;> simp_all [Standing.Holds]

/-! ## The account after one more step -/

theorem generated_snoc (ss : List Sight) (s : Sight) :
    generated (ss ++ [s]) = generated ss ++ s.generated?.toList := by
  cases h : s.generated? <;> simp [generated, h]

/-- Jobs that were made stay made. -/
theorem length_generated_le_snoc (ss : List Sight) (s : Sight) :
    (generated ss).length ≤ (generated (ss ++ [s])).length := by
  rw [generated_snoc, List.length_append]
  exact Nat.le_add_right _ _

theorem Sight.generated?_of_not_new (s : Sight) (h : s.isNew = false) : s.generated? = none := by
  simp [Sight.generated?, h]

theorem generated_snoc_of_not_new {s : Sight} (ss : List Sight) (h : s.isNew = false) :
    generated (ss ++ [s]) = generated ss := by
  simp [generated_snoc, s.generated?_of_not_new h]

theorem generated_snoc_fresh (c : Coordinator γ) (ss : List Sight) (now : Nat) :
    generated (ss ++ [.handing (c.generate now).1 true]) = generated ss ++ [c.nextId] := by
  rw [generated_snoc]
  rfl

/-- Ids stay in order when a new job takes the next one. -/
theorem ids_snoc_fresh {c : Coordinator γ} {ss : List Sight} (now : Nat)
    (hids : generated ss = (List.range (generated ss).length).map UInt32.ofNat)
    (hnext : c.nextId = UInt32.ofNat (generated ss).length) :
    let ss' := ss ++ [.handing (c.generate now).1 true]
    generated ss' = (List.range (generated ss').length).map UInt32.ofNat ∧
      (c.generate now).2.nextId = UInt32.ofNat (generated ss').length := by
  intro ss'
  rw [generated_snoc_fresh, List.length_append, List.length_singleton]
  constructor
  · rw [List.range_succ, List.map_append, ← hids, hnext]
    rfl
  · rw [UInt32.ofNat_add, ← hnext]
    rfl

theorem events_snoc (ss : List Sight) (s : Sight) :
    events (ss ++ [s]) = events ss ++ s.event.toList := by
  cases h : s.event <;> simp [events, h]

theorem eventsOf_snoc (ss : List Sight) (s : Sight) (id : JobId) :
    eventsOf (ss ++ [s]) id = eventsOf ss id ++ s.event.toList.filter (·.job == id) := by
  rw [eventsOf, events_snoc, List.filter_append]
  rfl

theorem firstFinding?_snoc (ss : List Sight) (s : Sight) (id : JobId) :
    firstFinding? (ss ++ [s]) id =
      (firstFinding? ss id).or (s.finding.filter (·.job == id)) := by
  unfold firstFinding?
  rw [List.filterMap_append, List.find?_append]
  congr 1
  cases h : s.finding with
  | none => simp [h]
  | some r => cases hr : r.job == id <;> simp [h, hr, Option.filter]

/-- The account and the coordinator agree. -/
structure Accounted (c : Coordinator γ) (ss : List Sight) : Prop where
  /-- Ids are given out in order. -/
  ids : generated ss = (List.range (generated ss).length).map UInt32.ofNat
  nextId : c.nextId = UInt32.ofNat (generated ss).length
  /-- A job that is out was made, and nothing came for it. -/
  out : ∀ id, (c.job? id).isSome →
    id ∈ generated ss ∧ eventsOf ss id = [] ∧ firstFinding? ss id = none
  /-- A job that is not out any more was settled once. -/
  settled : ∀ id ∈ generated ss, c.job? id = none →
    Standing.reported.Holds c ss id ∨ Standing.givenUp.Holds c ss id
  /-- Nothing came for a job that was never made. -/
  known : ∀ id, id ∉ generated ss → eventsOf ss id = [] ∧ firstFinding? ss id = none

/-- Before anything is asked. -/
theorem accounted_new (config : GridConfig) (source : JobSource γ) (g : γ) :
    Accounted (new config source g) [] where
  ids := rfl
  nextId := rfl
  out := fun id h => by simp [new, job?] at h
  settled := fun id h => by simp [generated] at h
  known := fun id _ => ⟨rfl, rfl⟩

/-- As long as there are ids left, the next one is new. -/
theorem Accounted.nextId_not_mem {c : Coordinator γ} {ss : List Sight} (h : Accounted c ss)
    (few : (generated ss).length < idCount) : c.nextId ∉ generated ss := by
  intro hmem
  -- ids are counted from zero, and the count has not come round yet
  rw [h.ids, h.nextId] at hmem
  obtain ⟨n, hn, heq⟩ := List.mem_map.mp hmem
  rw [List.mem_range] at hn
  have hval := congrArg UInt32.toNat heq
  rw [UInt32.toNat_ofNat', UInt32.toNat_ofNat'] at hval
  unfold idCount at few
  omega

/-- No two jobs have the same id. -/
theorem Accounted.nodup {c : Coordinator γ} {ss : List Sight} (h : Accounted c ss)
    (few : (generated ss).length ≤ idCount) : (generated ss).Nodup := by
  rw [h.ids]
  refine List.Nodup.map_on ?_ List.nodup_range
  intro m hm n hn heq
  rw [List.mem_range] at hm hn
  have hval := congrArg UInt32.toNat heq
  rw [UInt32.toNat_ofNat', UInt32.toNat_ofNat'] at hval
  unfold idCount at few
  omega

/-- A job that was made stands somewhere, and nowhere else. -/
theorem Accounted.exists_standing {c : Coordinator γ} {ss : List Sight} {id : JobId}
    (h : Accounted c ss) (hid : id ∈ generated ss) : ∃! k : Standing, k.Holds c ss id := by
  have hsome : ∃ k : Standing, k.Holds c ss id := by
    cases hj : c.job? id with
    | some j =>
      have hout : (c.job? id).isSome := by simp [hj]
      exact ⟨.outstanding, hout, (h.out id hout).2⟩
    | none =>
      rcases h.settled id hid hj with hk | hk
      · exact ⟨.reported, hk⟩
      · exact ⟨.givenUp, hk⟩
  obtain ⟨k, hk⟩ := hsome
  exact ⟨k, hk, fun k' hk' => hk'.unique hk⟩

/-- Events are about jobs that were made. -/
theorem Accounted.mem_generated_of_mem_events {c : Coordinator γ} {ss : List Sight}
    (h : Accounted c ss) {e : JobEvent} (he : e ∈ events ss) : e.job ∈ generated ss := by
  by_contra hnot
  have hnone := (h.known e.job hnot).1
  rw [eventsOf, List.filter_eq_nil_iff] at hnone
  exact hnone e he (by simp)

/-- There is at most one event about a job. -/
theorem Accounted.events_nodup {c : Coordinator γ} {ss : List Sight} (h : Accounted c ss) :
    ((events ss).map JobEvent.job).Nodup := by
  rw [List.nodup_iff_count_le_one]
  intro id
  have hcount : ((events ss).map JobEvent.job).count id = (eventsOf ss id).length := by
    rw [List.count, List.countP_map, List.countP_eq_length_filter]
    rfl
  rw [hcount]
  by_cases hid : id ∈ generated ss
  · cases hj : c.job? id with
    | some j =>
      rw [(h.out id (by simp [hj])).2.1]
      exact Nat.zero_le 1
    | none =>
      rcases h.settled id hid hj with ⟨-, r, -, hevents⟩ | ⟨-, hevents, -⟩
      · rw [hevents]
        exact Nat.le_refl 1
      · rw [hevents]
        exact Nat.le_refl 1
  · rw [(h.known id hid).1]
    exact Nat.zero_le 1

/-- A step that makes no job, reports nothing and leaves the same jobs out keeps the account. -/
theorem Accounted.of_same {c c' : Coordinator γ} {ss : List Sight} {s : Sight}
    (h : Accounted c ss) (hnew : s.isNew = false) (hfinding : s.finding = none)
    (hevent : s.event = none) (hnext : c'.nextId = c.nextId)
    (hout : ∀ id, (c'.job? id).isSome = (c.job? id).isSome) : Accounted c' (ss ++ [s]) := by
  have hgen := generated_snoc_of_not_new ss hnew
  have hevents : ∀ id, eventsOf (ss ++ [s]) id = eventsOf ss id := by
    intro id
    simp [eventsOf_snoc, hevent]
  have hfirst : ∀ id, firstFinding? (ss ++ [s]) id = firstFinding? ss id := by
    intro id
    simp [firstFinding?_snoc, hfinding]
  have hnone : ∀ id, c'.job? id = none ↔ c.job? id = none := by
    intro id
    simp only [← Option.not_isSome_iff_eq_none, hout id]
  refine ⟨by rw [hgen]; exact h.ids, by rw [hgen, hnext]; exact h.nextId, ?_, ?_, ?_⟩
  · intro id hid
    rw [hgen, hevents, hfirst]
    exact h.out id (hout id ▸ hid)
  · intro id hid hgone
    rw [hgen] at hid
    simp only [Standing.Holds, hevents, hfirst, hnone]
    exact h.settled id hid ((hnone id).mp hgone)
  · intro id hid
    rw [hgen] at hid
    rw [hevents, hfirst]
    exact h.known id hid

/-- A job that is settled moves from those that are out to those that are not. -/
theorem Accounted.of_settled {c : Coordinator γ} {ss : List Sight} {id : JobId} {s : Sight}
    (h : Accounted c ss) (hout : (c.job? id).isSome) (hnew : s.isNew = false)
    (hfinding : ∀ r, s.finding = some r → r.job = id)
    (hevent : ∀ e, s.event = some e → e.job = id)
    (hstands : eventsOf ss id = [] → firstFinding? ss id = none →
      Standing.reported.Holds (c.retire id) (ss ++ [s]) id ∨
        Standing.givenUp.Holds (c.retire id) (ss ++ [s]) id) :
    Accounted (c.retire id) (ss ++ [s]) := by
  obtain ⟨hmem, hnoEvent, hnoFinding⟩ := h.out id hout
  have hgen := generated_snoc_of_not_new ss hnew
  have hevents : ∀ other, other ≠ id → eventsOf (ss ++ [s]) other = eventsOf ss other := by
    intro other hne
    rw [eventsOf_snoc]
    cases he : s.event with
    | none => simp
    | some e => simp [hevent e he, Ne.symm hne]
  have hfirst : ∀ other, other ≠ id →
      firstFinding? (ss ++ [s]) other = firstFinding? ss other := by
    intro other hne
    rw [firstFinding?_snoc]
    cases hf : s.finding with
    | none => simp
    | some r => simp [Option.filter, hfinding r hf, Ne.symm hne]
  refine ⟨by rw [hgen]; exact h.ids, by rw [hgen]; exact h.nextId, ?_, ?_, ?_⟩
  · intro other hother
    have hne : other ≠ id := by
      rintro rfl
      simp at hother
    rw [c.job?_retire_of_ne hne] at hother
    rw [hgen, hevents other hne, hfirst other hne]
    exact h.out other hother
  · intro other hother hgone
    by_cases hne : other = id
    · subst hne
      exact hstands hnoEvent hnoFinding
    · rw [c.job?_retire_of_ne hne] at hgone
      rw [hgen] at hother
      simp only [Standing.Holds, hevents other hne, hfirst other hne, c.job?_retire_of_ne hne]
      exact h.settled other hother hgone
  · intro other hother
    rw [hgen] at hother
    have hne : other ≠ id := by
      rintro rfl
      exact hother hmem
    rw [hevents other hne, hfirst other hne]
    exact h.known other hother

/-- A new job joins those that are out. -/
theorem Accounted.of_fresh {c : Coordinator γ} {ss : List Sight} (h : Accounted c ss) (now : Nat)
    (few : (generated ss).length < idCount) :
    Accounted (c.generate now).2 (ss ++ [.handing (c.generate now).1 true]) := by
  have hgen := generated_snoc_fresh c ss now
  obtain ⟨hids, hnext⟩ := ids_snoc_fresh now h.ids h.nextId
  have hevents : ∀ id, eventsOf (ss ++ [.handing (c.generate now).1 true]) id =
      eventsOf ss id := by
    intro id
    simp [eventsOf_snoc, Sight.handing]
  have hfirst : ∀ id, firstFinding? (ss ++ [.handing (c.generate now).1 true]) id =
      firstFinding? ss id := by
    intro id
    simp [firstFinding?_snoc, Sight.handing]
  refine ⟨hids, hnext, ?_, ?_, ?_⟩
  · intro id hid
    rw [hgen, hevents, hfirst, List.mem_append, List.mem_singleton]
    rw [c.job?_generate now] at hid
    by_cases heq : id = c.nextId
    · -- the id is new, so nothing was ever told about it
      have := h.known id (heq ▸ h.nextId_not_mem few)
      exact ⟨.inr heq, this⟩
    · rw [if_neg heq] at hid
      obtain ⟨hmem, hnothing⟩ := h.out id hid
      exact ⟨.inl hmem, hnothing⟩
  · intro id hid hgone
    rw [c.job?_generate now] at hgone
    by_cases heq : id = c.nextId
    · simp [heq] at hgone
    · rw [if_neg heq] at hgone
      have hold : id ∈ generated ss := by
        rw [hgen] at hid
        simpa [heq] using hid
      simp only [Standing.Holds, hevents, hfirst, c.job?_generate now, if_neg heq]
      exact h.settled id hold hgone
  · intro id hid
    rw [hgen, List.mem_append, not_or] at hid
    rw [hevents, hfirst]
    exact h.known id hid.1

/-- One step keeps the account. -/
theorem Accounted.step {c c' : Coordinator γ} {ss : List Sight} {s : Sight} (h : Accounted c ss)
    (hs : Step c s c') (few : (generated (ss ++ [s])).length ≤ idCount) :
    Accounted c' (ss ++ [s]) := by
  cases hs with
  | quiet => exact h.of_same rfl rfl rfl rfl fun _ => rfl
  | requeued now => exact h.of_same rfl rfl rfl rfl fun _ => rfl
  | failed out tries absent => exact h.of_same rfl rfl rfl rfl fun _ => rfl
  | @again j rest now found =>
    -- the queue may hold jobs that are settled, but what is taken out of it is still out
    obtain ⟨_, _, hout, _⟩ := takeResend_eq_some found
    have hstill : (c.job? j.id).isSome := by simp [hout]
    exact h.of_same rfl rfl rfl rfl (isSome_job?_putJob (j := j.handOut now) hstill)
  | fresh now empty =>
    refine h.of_fresh now ?_
    rw [generated_snoc, List.length_append] at few
    exact few
  | @reported r j out =>
    refine h.of_settled (by simp [out]) rfl (by simp) (by simp [JobEvent.job]) ?_
    intro hnoEvent hnoFinding
    refine .inl ⟨by simp, r, ?_, ?_⟩
    · simp [firstFinding?_snoc, hnoFinding]
    · simp [eventsOf_snoc, hnoEvent, JobEvent.job]
  | givenUp out tries =>
    refine h.of_settled (by simp [out]) rfl (by simp) (by simp [JobEvent.job]) ?_
    intro hnoEvent hnoFinding
    refine .inr ⟨by simp, ?_, ?_⟩
    · simp [eventsOf_snoc, hnoEvent, JobEvent.job]
    · simp [firstFinding?_snoc, hnoFinding]

/-- A whole run keeps the account. -/
theorem Run.accounted {c₀ c : Coordinator γ} {ss ss₀ : List Sight} (hr : Run c₀ ss c)
    (h : Accounted c₀ ss₀) (few : (generated (ss₀ ++ ss)).length ≤ idCount) :
    Accounted c (ss₀ ++ ss) := by
  induction hr with
  | nil => simpa using h
  | @snoc ss s c c' _ hs ih =>
    rw [← List.append_assoc] at few ⊢
    have fewBefore := Nat.le_trans (length_generated_le_snoc _ s) few
    exact (ih fewBefore).step hs few

/-- The account of any calls from the start. -/
theorem accounted_after (config : GridConfig) (source : JobSource γ) (g : γ) {calls : List Call}
    (few : (generated ((new config source g).sights calls)).length ≤ idCount) :
    Accounted ((new config source g).after calls) ((new config source g).sights calls) := by
  simpa using (run_sights (new config source g) calls).accounted (accounted_new config source g)
    (by simpa using few)

/-! ## Jobs that are not out any more -/

/-- The job was made, and is not out any more. -/
def Gone (c : Coordinator γ) (ss : List Sight) (id : JobId) : Prop :=
  id ∈ generated ss ∧ c.job? id = none

/-- A job that is gone stays so, and is not what is handed out. -/
theorem Gone.step {c c' : Coordinator γ} {ss : List Sight} {s : Sight} {id : JobId}
    (hg : Gone c ss id) (h : Accounted c ss) (hs : Step c s c')
    (few : (generated (ss ++ [s])).length ≤ idCount) :
    Gone c' (ss ++ [s]) id ∧ ∀ j, s.handed = some j → j.id ≠ id := by
  obtain ⟨hmem, hnone⟩ := hg
  have hmem' : id ∈ generated (ss ++ [s]) := by
    rw [generated_snoc]
    exact List.mem_append_left _ hmem
  cases hs with
  | quiet => exact ⟨⟨hmem', hnone⟩, by simp [Sight.nothing]⟩
  | requeued now => exact ⟨⟨hmem', hnone⟩, by simp [Sight.nothing]⟩
  | failed out tries absent => exact ⟨⟨hmem', hnone⟩, by simp [Sight.nothing]⟩
  | @again j rest now found =>
    obtain ⟨_, _, hout, _⟩ := takeResend_eq_some found
    have hne : id ≠ j.id := by
      rintro rfl
      simp [hnone] at hout
    refine ⟨⟨hmem', ?_⟩, ?_⟩
    · exact (job?_putJob_of_ne _ (j.handOut now) hne).trans hnone
    · rintro _ ⟨⟩
      exact Ne.symm hne
  | fresh now empty =>
    have hlt : (generated ss).length < idCount := by
      rw [generated_snoc, List.length_append] at few
      exact few
    have hne : id ≠ c.nextId := by
      rintro rfl
      exact h.nextId_not_mem hlt hmem
    refine ⟨⟨hmem', ?_⟩, ?_⟩
    · rw [c.job?_generate now, if_neg hne]
      exact hnone
    · rintro _ ⟨⟩
      exact Ne.symm hne
  | @reported r j out =>
    have hne : id ≠ r.job := by
      rintro rfl
      simp [hnone] at out
    exact ⟨⟨hmem', (c.job?_retire_of_ne hne).trans hnone⟩, by simp⟩
  | @givenUp other j out tries =>
    have hne : id ≠ other := by
      rintro rfl
      simp [hnone] at out
    exact ⟨⟨hmem', (c.job?_retire_of_ne hne).trans hnone⟩, by simp⟩

/-- A job that is gone is not handed out in the rest of a run, whatever waits in the queue. -/
theorem Run.not_handed {c₀ c : Coordinator γ} {ss₀ ss : List Sight} {id : JobId}
    (hr : Run c₀ ss c) (hg : Gone c₀ ss₀ id) (h : Accounted c₀ ss₀)
    (few : (generated (ss₀ ++ ss)).length ≤ idCount) :
    Gone c (ss₀ ++ ss) id ∧ ∀ s ∈ ss, ∀ j, s.handed = some j → j.id ≠ id := by
  induction hr with
  | nil => exact ⟨by simpa using hg, by simp⟩
  | @snoc ss s c c' hr hs ih =>
    rw [← List.append_assoc] at few ⊢
    have fewBefore := Nat.le_trans (length_generated_le_snoc _ s) few
    obtain ⟨hgone, hearlier⟩ := ih fewBefore
    obtain ⟨hgone', hlast⟩ := hgone.step (hr.accounted h fewBefore) hs few
    refine ⟨hgone', ?_⟩
    intro s' hs'
    rcases List.mem_append.mp hs' with hs' | hs'
    · exact hearlier s' hs'
    · rw [List.mem_singleton] at hs'
      exact hs' ▸ hlast

/-! ## Runs from the start -/

/-- After any calls, each job that was made stands in exactly one place: it is out and nothing came
of it, it was reported once with its first result, or it was given up once. Nothing is told about a
job that was never made, and a job that is not out any more is not handed out by later calls. -/
theorem every_job_settles_once (config : GridConfig) (source : JobSource γ) (g : γ)
    (calls later : List Call)
    (few : (generated ((new config source g).sights (calls ++ later))).length ≤ idCount) :
    let c := (new config source g).after calls
    let ss := (new config source g).sights calls
    (generated ss).Nodup ∧
      (∀ id ∈ generated ss, ∃! k : Standing, k.Holds c ss id) ∧
      (∀ e ∈ events ss, e.job ∈ generated ss) ∧
      ∀ id ∈ generated ss, c.job? id = none →
        ∀ s ∈ c.sights later, ∀ j, s.handed = some j → j.id ≠ id := by
  intro c ss
  rw [sights_append] at few
  have fewBefore : (generated ss).length ≤ idCount := by
    simp only [generated, List.filterMap_append, List.length_append] at few
    exact Nat.le_trans (Nat.le_add_right _ _) few
  have h : Accounted c ss := by
    simpa using (run_sights (new config source g) calls).accounted
      (accounted_new config source g) fewBefore
  refine ⟨h.nodup fewBefore, fun id => h.exists_standing,
    fun e => h.mem_generated_of_mem_events, ?_⟩
  intro id hid hnone
  exact ((run_sights c later).not_handed ⟨hid, hnone⟩ h few).2

/-- A source of numbered jobs. -/
def numbered : JobSource Nat := ⟨fun _ => [], fun n => ([UInt8.ofNat n], n + 1)⟩

/-- Two jobs go out. The first fails and waits to be handed out again, but then a result comes for it
after all, and a second one after that. -/
def lateResults : List Call :=
  let site : Site := .new (.new .server .default (.ipv4 10 8 8 8 8) none)
  let tell (kind : GridKind) (data : Bytes) : Call :=
    .message site 1 (.ipv4 10 0 0 1 1) (.grid (.ofData kind 0 data))
  [.next 0, .next 0, tell .compError [], tell .compSuccessful [7], tell .compIncorrect [8]]

/-- The first job is reported with its first result, and asking for a job afterwards does not bring
it back. -/
theorem late_results_settle_once :
    let c₀ := new .default numbered 0
    (generated (c₀.sights (lateResults ++ [.next 2]))).length ≤ idCount ∧
      (generated (c₀.sights lateResults)).Nodup ∧
      (∀ id ∈ generated (c₀.sights lateResults),
        ∃! k : Standing, k.Holds (c₀.after lateResults) (c₀.sights lateResults) id) ∧
      (∀ e ∈ events (c₀.sights lateResults), e.job ∈ generated (c₀.sights lateResults)) ∧
      ∀ id ∈ generated (c₀.sights lateResults), (c₀.after lateResults).job? id = none →
        ∀ s ∈ (c₀.after lateResults).sights [.next 2], ∀ j, s.handed = some j → j.id ≠ id := by
  have few : (generated ((new .default numbered 0).sights (lateResults ++ [.next 2]))).length ≤
      idCount := by decide
  exact ⟨few, every_job_settles_once .default numbered 0 lateResults [.next 2] few⟩

end Coordinator

end Parley
