import Parley.Proofs.Grid.Jobs

/-!
# Ids that come round

Ids are counted in 32 bits, and the count does not look at the jobs that are out. A new job gets the
id of the job that was made as many jobs ago as there are ids; if that one is still out, it is
overwritten, and no event will ever tell of it. Here runs may be of any length.

* `Coordinator.Numbered.step`, `Coordinator.Run.numbered` — which ids are out, in every run;
* `Coordinator.nextId_out_iff` — when a new job gets an id that is out;
* `Coordinator.first_job_overwritten` — a run in which it does.
-/

namespace Parley

namespace Coordinator

variable {γ : Type}

/-- The last job that was made under the id was not settled since. -/
def Open (ss : List Sight) (id : JobId) : Prop :=
  ∃ front s back, ss = front ++ s :: back ∧ s.generated? = some id ∧
    ∀ t ∈ back, t.generated? ≠ some id ∧ ∀ event, t.event = some event → event.job ≠ id

theorem open_snoc (ss : List Sight) (s : Sight) (id : JobId) :
    Open (ss ++ [s]) id ↔
      s.generated? = some id ∨
        Open ss id ∧ s.generated? ≠ some id ∧ ∀ event, s.event = some event → event.job ≠ id := by
  constructor
  · rintro ⟨front, t, back, hsplit, hmade, hback⟩
    rcases List.eq_nil_or_concat back with rfl | ⟨middle, last, rfl⟩
    · obtain ⟨-, rfl⟩ := List.append_inj' hsplit rfl |>.imp_right (List.cons.inj · |>.1)
      exact .inl hmade
    · rw [List.concat_eq_append, ← List.cons_append, ← List.append_assoc] at hsplit
      obtain ⟨rfl, hlast⟩ := List.append_inj' hsplit rfl
      obtain rfl : s = last := (List.cons.inj hlast).1
      have hs := hback s (by simp)
      refine .inr ⟨⟨front, t, middle, rfl, hmade, ?_⟩, hs⟩
      intro t' ht'
      exact hback t' (by simp [ht'])
  · rintro (hmade | ⟨⟨front, t, back, rfl, hmade, hback⟩, hs⟩)
    · exact ⟨ss, s, [], rfl, hmade, fun _ h => nomatch h⟩
    · refine ⟨front, t, back ++ [s], by simp, hmade, ?_⟩
      intro t' ht'
      rcases List.mem_append.mp ht' with ht' | ht'
      · exact hback t' ht'
      · rw [List.mem_singleton.mp ht']
        exact hs

/-- What is known of the ids after any run. -/
structure Numbered (c : Coordinator γ) (ss : List Sight) : Prop where
  /-- Ids are given out in order, and come round. -/
  ids : generated ss = (List.range (generated ss).length).map UInt32.ofNat
  nextId : c.nextId = UInt32.ofNat (generated ss).length
  out : ∀ id, (c.job? id).isSome ↔ Open ss id

theorem numbered_new (config : GridConfig) (source : JobSource γ) (g : γ) :
    Numbered (new config source g) [] where
  ids := rfl
  nextId := rfl
  out := by
    intro id
    simp [new, job?, Open]

/-- A step that makes no job, tells nothing and leaves the same jobs out. -/
theorem Numbered.of_same {c c' : Coordinator γ} {ss : List Sight} {s : Sight}
    (h : Numbered c ss) (hnew : s.isNew = false) (hevent : s.event = none)
    (hnext : c'.nextId = c.nextId) (hout : ∀ id, (c'.job? id).isSome = (c.job? id).isSome) :
    Numbered c' (ss ++ [s]) := by
  have hmade := s.generated?_of_not_new hnew
  have hgen := generated_snoc_of_not_new ss hnew
  refine ⟨by rw [hgen]; exact h.ids, by rw [hgen, hnext]; exact h.nextId, ?_⟩
  intro id
  rw [hout, h.out, open_snoc]
  simp [hmade, hevent]

/-- A job is settled. -/
theorem Numbered.of_settled {c : Coordinator γ} {ss : List Sight} {s : Sight} (h : Numbered c ss)
    (hnew : s.isNew = false) (event : JobEvent) (hevent : s.event = some event) :
    Numbered (c.retire event.job) (ss ++ [s]) := by
  have hmade := s.generated?_of_not_new hnew
  have hgen := generated_snoc_of_not_new ss hnew
  refine ⟨by rw [hgen]; exact h.ids, by rw [hgen]; exact h.nextId, ?_⟩
  intro id
  rw [open_snoc, ← h.out]
  by_cases hid : id = event.job
  · simp [hid, hmade, hevent]
  · rw [c.job?_retire_of_ne hid]
    simp [hmade, hevent, Ne.symm hid]

/-- A job is made, whether its id is out or not. -/
theorem Numbered.of_fresh {c : Coordinator γ} {ss : List Sight} (h : Numbered c ss) (now : Nat) :
    Numbered (c.generate now).2 (ss ++ [.handing (c.generate now).1 true]) := by
  obtain ⟨hids, hnext⟩ := ids_snoc_fresh now h.ids h.nextId
  refine ⟨hids, hnext, ?_⟩
  intro id
  rw [open_snoc, ← h.out, c.job?_generate now]
  show _ ↔ some c.nextId = some id ∨ _ ∧ some c.nextId ≠ some id ∧ _
  by_cases hid : id = c.nextId
  · simp [hid]
  · simp [hid, Ne.symm hid, Sight.handing]

/-- One step, wherever the count is. -/
theorem Numbered.step {c c' : Coordinator γ} {ss : List Sight} {s : Sight} (h : Numbered c ss)
    (hs : Step c s c') : Numbered c' (ss ++ [s]) := by
  cases hs with
  | quiet => exact h.of_same rfl rfl rfl fun _ => rfl
  | requeued now => exact h.of_same rfl rfl rfl fun _ => rfl
  | failed out tries absent => exact h.of_same rfl rfl rfl fun _ => rfl
  | @again j rest now found =>
    obtain ⟨_, _, hout, _⟩ := takeResend_eq_some found
    have hstill : (c.job? j.id).isSome := by simp [hout]
    exact h.of_same rfl rfl rfl (isSome_job?_putJob (j := j.handOut now) hstill)
  | fresh now empty => exact h.of_fresh now
  | @reported r j out => exact h.of_settled rfl (.reported r.job r.correct r.data) rfl
  | @givenUp id j out tries => exact h.of_settled rfl (.givenUp id) rfl

/-- A whole run, of any length. -/
theorem Run.numbered {c₀ c : Coordinator γ} {ss : List Sight} (hr : Run c₀ ss c)
    (h : Numbered c₀ []) : Numbered c ss := by
  induction hr with
  | nil => exact h
  | snoc _ hs ih => exact ih.step hs

/-! ## The id of a new job -/

theorem ofNat_eq_ofNat_iff (m n : Nat) :
    UInt32.ofNat m = UInt32.ofNat n ↔ m % idCount = n % idCount := by
  rw [← UInt32.toNat_inj, UInt32.toNat_ofNat', UInt32.toNat_ofNat']
  rfl

/-- Jobs are numbered on both sides of any of them. -/
theorem Numbered.split {c : Coordinator γ} {front back : List Sight} {s : Sight} {id : JobId}
    (h : Numbered c (front ++ s :: back)) (hmade : s.generated? = some id) :
    id = UInt32.ofNat (generated front).length ∧
      generated back =
        (List.range' ((generated front).length + 1) (generated back).length).map UInt32.ofNat := by
  have hgen : generated (front ++ s :: back) = generated front ++ id :: generated back := by
    simp [generated, hmade]
  have hids := h.ids
  rw [hgen, List.length_append, List.length_cons, List.range_eq_range',
    ← List.range'_append_1, List.map_append, Nat.zero_add, List.range'_succ, List.map_cons]
    at hids
  obtain ⟨-, hrest⟩ := List.append_inj hids (by simp)
  obtain ⟨hid, hback⟩ := List.cons.inj hrest
  exact ⟨hid, hback⟩

/-- The next id is out exactly if it went to the job that was made as many jobs ago as there are
ids, and that job was not settled since. -/
theorem Numbered.open_nextId_iff {c : Coordinator γ} {ss : List Sight} (h : Numbered c ss) :
    Open ss c.nextId ↔
      ∃ front s back, ss = front ++ s :: back ∧ s.generated?.isSome ∧
        (generated (s :: back)).length = idCount ∧
        ∀ t ∈ back, ∀ event, t.event = some event → event.job ≠ c.nextId := by
  have hlength : ∀ front s back id, ss = front ++ s :: back → s.generated? = some id →
      (generated ss).length = (generated front).length + (generated (s :: back)).length ∧
        (generated (s :: back)).length = (generated back).length + 1 := by
    rintro front s back id rfl hmade
    simp [generated, hmade]
  constructor
  · rintro ⟨front, s, back, hsplit, hmade, hback⟩
    refine ⟨front, s, back, hsplit, by simp [hmade], ?_, fun t ht => (hback t ht).2⟩
    obtain ⟨hall, hone⟩ := hlength front s back _ hsplit hmade
    obtain ⟨hid, hnumbers⟩ := (hsplit ▸ h : Numbered c (front ++ s :: back)).split hmade
    rw [h.nextId, ofNat_eq_ofNat_iff] at hid
    by_contra hne
    -- the id would have come round once more in between
    have hmem : c.nextId ∈ generated back := by
      rw [hnumbers, List.mem_map]
      refine ⟨(generated ss).length - idCount, ?_, ?_⟩
      · rw [List.mem_range'_1]
        unfold idCount at *
        omega
      · rw [h.nextId, ofNat_eq_ofNat_iff]
        unfold idCount at *
        omega
    obtain ⟨t, ht, hmade'⟩ := List.mem_filterMap.mp hmem
    exact (hback t ht).1 hmade'
  · rintro ⟨front, s, back, hsplit, hsome, hcount, hback⟩
    obtain ⟨id, hmade⟩ := Option.isSome_iff_exists.mp hsome
    obtain ⟨hall, hone⟩ := hlength front s back id hsplit hmade
    obtain ⟨hid, hnumbers⟩ := (hsplit ▸ h : Numbered c (front ++ s :: back)).split hmade
    have hsame : id = c.nextId := by
      rw [hid, h.nextId, ofNat_eq_ofNat_iff, hall, hcount, Nat.add_mod_right]
    refine ⟨front, s, back, hsplit, hsame ▸ hmade, ?_⟩
    intro t ht
    refine ⟨?_, hback t ht⟩
    intro hmade'
    have hmem : c.nextId ∈ generated back := List.mem_filterMap.mpr ⟨t, ht, hmade'⟩
    rw [hnumbers, List.mem_map] at hmem
    obtain ⟨k, hk, heq⟩ := hmem
    rw [List.mem_range'_1] at hk
    rw [h.nextId, ofNat_eq_ofNat_iff] at heq
    unfold idCount at *
    omega

/-- A new job gets the next id of the count. That id is out, and its job is overwritten, exactly if
it is the id of the job that was made as many jobs ago as there are ids and no event told of that job
since. -/
theorem nextId_out_iff (config : GridConfig) (source : JobSource γ) (g : γ) (calls : List Call)
    (now : Nat)
    (empty : ((new config source g).after calls).takeResend
      ((new config source g).after calls).resend = none) :
    let c := (new config source g).after calls
    let ss := (new config source g).sights calls
    let j := (c.nextJob now).1
    j.id = UInt32.ofNat (generated ss).length ∧
      ((c.job? j.id).isSome ↔
        ∃ front s back, ss = front ++ s :: back ∧ s.generated?.isSome ∧
          (generated (s :: back)).length = idCount ∧
          ∀ t ∈ back, ∀ event, t.event = some event → event.job ≠ j.id) ∧
      (c.nextJob now).2.job? j.id = some j := by
  intro c ss j
  have h : Numbered c ss :=
    (run_sights (new config source g) calls).numbered (numbered_new config source g)
  have hnext : c.nextJob now = c.generate now := by
    unfold nextJob
    rw [empty]
  have hid : j.id = c.nextId := by
    show (c.nextJob now).1.id = _
    rw [hnext]
    rfl
  refine ⟨hid.trans h.nextId, ?_, ?_⟩
  · rw [hid, h.out]
    exact h.open_nextId_iff
  · rw [hid, hnext, c.job?_generate now, if_pos rfl]
    show some (c.generate now).1 = some (c.nextJob now).1
    rw [hnext]

/-- The third of three jobs gets an id that is not out. -/
theorem third_id_is_new :
    let calls : List Call := [.next 0, .next 1]
    let c := (new .default numbered 0).after calls
    let ss := (new .default numbered 0).sights calls
    let j := (c.nextJob 2).1
    c.takeResend c.resend = none ∧ j.id = UInt32.ofNat (generated ss).length ∧
      ((c.job? j.id).isSome ↔
        ∃ front s back, ss = front ++ s :: back ∧ s.generated?.isSome ∧
          (generated (s :: back)).length = idCount ∧
          ∀ t ∈ back, ∀ event, t.event = some event → event.job ≠ j.id) ∧
      (c.nextJob 2).2.job? j.id = some j :=
  have empty : ((new .default numbered 0).after [.next 0, .next 1]).takeResend
      ((new .default numbered 0).after [.next 0, .next 1]).resend = none := by decide
  ⟨empty, nextId_out_iff .default numbered 0 [.next 0, .next 1] 2 empty⟩

/-! ## A run in which an id comes round -/

/-- The job that is made under an id when the count has not come round. -/
def firstJob (source : JobSource γ) (g : γ) (id : JobId) : Job :=
  ⟨id, source.job g id.toNat, 0, 1⟩

/-- After jobs were only asked for, all of them are out. -/
structure Asked (origin : JobSource γ) (g : γ) (n : Nat) (c : Coordinator γ) : Prop where
  source : c.source = origin
  generator : c.generator = origin.after g n
  resend : c.resend = []
  nextId : c.nextId = UInt32.ofNat n
  out : ∀ id, c.job? id = if id.toNat < n then some (firstJob origin g id) else none

theorem Asked.nextJob {origin : JobSource γ} {g : γ} {n : Nat} {c : Coordinator γ}
    (h : Asked origin g n c) (now : Nat) : c.nextJob now = c.generate now := by
  unfold Coordinator.nextJob
  rw [h.resend]
  rfl

theorem asked_nexts (config : GridConfig) (origin : JobSource γ) (g : γ) {n : Nat}
    (few : n ≤ idCount) :
    Asked origin g n ((new config origin g).after (List.replicate n (.next 0))) := by
  induction n with
  | zero => exact ⟨rfl, rfl, rfl, rfl, fun _ => rfl⟩
  | succ n ih =>
    have h := ih (Nat.le_of_succ_le few)
    rw [List.replicate_succ', after, List.foldl_append]
    generalize hc : List.foldl perform (new config origin g) (List.replicate n (.next 0)) = c
    replace h : Asked origin g n c := hc ▸ h
    have hid : c.nextId.toNat = n := by
      rw [h.nextId]
      exact UInt32.toNat_ofNat_of_lt' few
    show Asked origin g (n + 1) (c.nextJob 0).2
    rw [h.nextJob]
    refine ⟨h.source, ?_, rfl, ?_, ?_⟩
    · show (c.source.next c.generator).2 = _
      rw [h.source, h.generator]
      rfl
    · show c.nextId + 1 = _
      rw [h.nextId, UInt32.ofNat_add]
      rfl
    · intro id
      rw [c.job?_generate 0, h.out]
      by_cases heq : id = c.nextId
      · subst heq
        rw [if_pos rfl, if_pos (by omega), firstJob, hid]
        show some (Job.handOut ⟨c.nextId, (c.source.next c.generator).1, 0, 0⟩ 0) = _
        rw [h.source, h.generator]
        rfl
      · have hne : id.toNat ≠ n := fun hn => heq (UInt32.toNat_inj.mp (hn.trans hid.symm))
        rw [if_neg heq]
        by_cases hlt : id.toNat < n
        · rw [if_pos hlt, if_pos (by omega)]
        · rw [if_neg hlt, if_neg (by omega)]

/-- A source of jobs that are all different. -/
def counting : JobSource Nat := ⟨fun _ => [], fun n => (Bytes.ofNatLE 8 n, n + 1)⟩

theorem after_counting (n : Nat) : counting.after 0 n = n := by
  induction n with
  | zero => rfl
  | succ n ih =>
    show counting.after 0 n + 1 = n + 1
    rw [ih]

/-- When all ids are out the next job takes the place of the first one. -/
theorem Asked.overwritten {c : Coordinator Nat} (h : Asked counting 0 idCount c) :
    (∀ id, (c.job? id).isSome) ∧
      c.job? 0 = some ⟨0, [0, 0, 0, 0, 0, 0, 0, 0], 0, 1⟩ ∧ (c.nextJob 0).1.id = 0 ∧
      (c.nextJob 0).2.job? 0 = some ⟨0, [0, 0, 0, 0, 1, 0, 0, 0], 0, 1⟩ := by
  have hid : c.nextId = 0 := h.nextId
  have hlt : ∀ id : JobId, id.toNat < idCount := fun id => id.toNat_lt
  refine ⟨?_, ?_, ?_, ?_⟩
  · intro id
    rw [h.out, if_pos (hlt id)]
    rfl
  · rw [h.out, if_pos (hlt 0), firstJob, JobSource.job, after_counting]
    rfl
  · rw [h.nextJob]
    exact hid
  · rw [h.nextJob, c.job?_generate 0, if_pos hid.symm]
    show some (Job.handOut ⟨c.nextId, (c.source.next c.generator).1, 0, 0⟩ 0) = _
    rw [hid, h.source, h.generator, after_counting]
    rfl

/-- As many jobs are asked for as there are ids, and nothing comes of any of them. All of them are
out then, but the next job gets the id of the first one, and nothing is left of that. -/
theorem first_job_overwritten :
    let c := (new .default counting 0).after (List.replicate idCount (.next 0))
    (∀ id, (c.job? id).isSome) ∧
      c.job? 0 = some ⟨0, [0, 0, 0, 0, 0, 0, 0, 0], 0, 1⟩ ∧ (c.nextJob 0).1.id = 0 ∧
      (c.nextJob 0).2.job? 0 = some ⟨0, [0, 0, 0, 0, 1, 0, 0, 0], 0, 1⟩ :=
  (asked_nexts .default counting 0 (Nat.le_refl idCount)).overwritten

end Coordinator

end Parley
