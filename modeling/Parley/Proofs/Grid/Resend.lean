import Parley.Proofs.Grid.Attempts
import Parley.Proofs.Grid.Jobs

/-!
# Stale jobs come back

When all jobs are out too long, one look at them queues those that do not wait yet, and from then on
each of them waits in the queue once, beside ids of jobs that are settled. So a coordinator that is
asked as often as jobs are out hands out each of them, as it was first made, and turns to its source
only after that.

* `Orderly.perm_waiting_requeueStale` — after the look, the jobs that wait are those that are out;
* `Orderly.sights_nexts_requeueStale` — asking as often as jobs are out hands out each of them;
* `Attempted.attempts_again` — handed out again, a job has one attempt more;
* `stale_jobs_return_once` — all of this in every state that calls lead to.
-/

namespace Parley

namespace Coordinator

variable {γ : Type}

/-- After a look at a time when all jobs are out too long, the jobs that wait are those that are
out. -/
theorem Orderly.perm_waiting_requeueStale {c : Coordinator γ} (h : c.Orderly) {now : Nat}
    (late : ∀ j ∈ c.jobs, c.config.jobTimeout < now - j.handedOut) :
    (c.requeueStale now).2.waiting.Perm (c.jobs.map (·.id)) := by
  have hqueue : (c.requeueStale now).2.Orderly := h.step (.requeued now)
  have hnodup : (c.requeueStale now).2.waiting.Nodup := hqueue.queue.filter _
  refine (List.perm_ext_iff_of_nodup hnodup h.ids).mpr ?_
  intro id
  rw [mem_waiting_iff]
  show id ∈ c.resend ++ (c.stale now).map (·.id) ∧ (c.job? id).isSome ↔ _
  rw [isSome_job?_iff]
  refine ⟨And.right, ?_⟩
  intro hout
  refine ⟨?_, hout⟩
  by_cases hwaits : id ∈ c.resend
  · exact List.mem_append_left _ hwaits
  · obtain ⟨j, hj, rfl⟩ := List.mem_map.mp hout
    have hstale : j ∈ c.stale now := mem_stale_iff.mpr ⟨hj, late j hj, hwaits⟩
    exact List.mem_append_right _ (List.mem_map_of_mem hstale)

/-- When all jobs that are out wait already, a look at any time finds none. -/
theorem requeueStale_of_all_wait {c : Coordinator γ} (h : ∀ j ∈ c.jobs, j.id ∈ c.resend)
    (now : Nat) : (c.requeueStale now).1 = 0 := by
  show (c.stale now).length = 0
  rw [List.length_eq_zero_iff, List.eq_nil_iff_forall_not_mem]
  intro j hj
  obtain ⟨hout, -, hfree⟩ := mem_stale_iff.mp hj
  exact hfree (h j hout)

/-- After such a look, asking as often as jobs are out hands out each of them, and none waits
then. -/
theorem Orderly.sights_nexts_requeueStale {c : Coordinator γ} (h : c.Orderly) {now : Nat}
    (late : ∀ j ∈ c.jobs, c.config.jobTimeout < now - j.handedOut) {times : List Nat}
    (enough : times.length = c.jobs.length) :
    let d := (c.requeueStale now).2
    let e := d.after (times.map .next)
    (∃ js : List Job, d.sights (times.map .next) = js.map (Sight.handing · false) ∧
      (js.map (·.id)).Nodup ∧ (js.map (·.id)).Perm (c.jobs.map (·.id)) ∧
      ∀ j ∈ js, ∃ j₀, c.job? j.id = some j₀ ∧ j.data = j₀.data ∧
        j.attempts = j₀.attempts + 1) ∧
    e.waiting = [] ∧ e.source = c.source ∧ e.generator = c.generator := by
  intro d e
  have hperm : d.waiting.Perm (c.jobs.map (·.id)) := h.perm_waiting_requeueStale late
  have hnodup : d.waiting.Nodup := hperm.nodup_iff.mpr h.ids
  have hlength : times.length = d.waiting.length := by
    rw [enough, hperm.length_eq, List.length_map]
  obtain ⟨js, hsights, hids, hkept, hrest⟩ := sights_nexts hnodup hlength
  refine ⟨⟨js, hsights, ?_, ?_, hkept⟩, hrest⟩
  · rw [hids]
    exact hnodup
  · rw [hids]
    exact hperm

/-- When no job waits, the source is asked for one. -/
theorem next_of_waiting_nil {c : Coordinator γ} (h : c.waiting = []) (now : Nat) :
    c.sight (.next now) = .handing (c.generate now).1 true ∧
      c.perform (.next now) = (c.generate now).2 := by
  have hnone := takeResend_of_waiting_nil h
  have hnext : c.nextJob now = c.generate now := by
    unfold nextJob
    rw [hnone]
  refine ⟨?_, congrArg Prod.snd hnext⟩
  simp [sight, Call.demand?, Call.finding?, Sight.handing, hnone, hnext]

/-- Handed out again, a job has one attempt more. -/
theorem Attempted.attempts_again {c : Coordinator γ} {ss : List Sight} (h : Attempted c ss)
    {id : JobId} {j₀ j : Job} (out : c.job? id = some j₀) (rare : handOuts ss id + 1 < idCount)
    (again : j.attempts = j₀.attempts + 1) : j.attempts.toNat = j₀.attempts.toNat + 1 := by
  rw [← h.out id j₀ out] at rare
  rw [again]
  exact toNat_handOut_attempts rfl rare j₀.handedOut

/-- A job that is out has the data with which it was made. -/
theorem Supplied.exists_made {source : JobSource γ} {g : γ} {c : Coordinator γ} {ss : List Sight}
    (h : Supplied source g c ss) (ha : Accounted c ss) {id : JobId} {j : Job}
    (out : c.job? id = some j) : ∃ first ∈ made ss, first.id = id ∧ first.data = j.data := by
  have hid : id ∈ generated ss := (ha.out id (by simp [out])).1
  rw [← map_id_made] at hid
  obtain ⟨first, hfirst, rfl⟩ := List.mem_map.mp hid
  refine ⟨first, hfirst, rfl, ?_⟩
  rw [h.data_of_mem_made hfirst, h.out first.id j out]

/-- After any calls, a look at the jobs queues those that are out too long and do not wait behind
those that wait, the oldest first, and a second look queues none. If all jobs that are out are out
too long, the coordinator then hands out each of them once when it is asked as often as there are
such jobs, with its first data and one attempt more. It asks its source when it is asked once
more. -/
theorem stale_jobs_return_once (config : GridConfig) (source : JobSource γ) (g : γ)
    (calls : List Call)
    (few : (generated ((new config source g).sights calls)).length ≤ idCount)
    (rare : ∀ id, handOuts ((new config source g).sights calls) id + 1 < idCount) :
    let c := (new config source g).after calls
    let ss := (new config source g).sights calls
    (∀ now, ∃ found : List Job,
      c.requeueStale now = (found.length, { c with resend := c.resend ++ found.map (·.id) }) ∧
        found.Pairwise Before ∧
        (∀ j, j ∈ found ↔
          j ∈ c.jobs ∧ config.jobTimeout < now - j.handedOut ∧ j.id ∉ c.resend) ∧
        ((c.requeueStale now).2.requeueStale now).1 = 0) ∧
      ∀ now, (∀ j ∈ c.jobs, config.jobTimeout < now - j.handedOut) →
        let d := (c.requeueStale now).2
        (∀ later, (d.requeueStale later).1 = 0) ∧
          ∀ times : List Nat, times.length = c.jobs.length →
            let e := d.after (times.map .next)
            (∃ js : List Job, d.sights (times.map .next) = js.map (Sight.handing · false) ∧
              (js.map (·.id)).Nodup ∧ (js.map (·.id)).Perm (c.jobs.map (·.id)) ∧
              ∀ j ∈ js, (∃ first ∈ made ss, first.id = j.id ∧ first.data = j.data) ∧
                ∃ j₀, c.job? j.id = some j₀ ∧ j.attempts.toNat = j₀.attempts.toNat + 1) ∧
            e.generator = c.generator ∧
            ∀ last, ∃ j, e.sight (.next last) = .handing j true ∧
              j.data = (source.next c.generator).1 ∧
              (e.perform (.next last)).generator = (source.next c.generator).2 := by
  intro c ss
  have hconfig : c.config = config := (run_sights (new config source g) calls).config_eq
  have ho : c.Orderly := orderly_after config source g calls
  have ha : Accounted c ss := accounted_after config source g few
  have hs : Supplied source g c ss := supplied_after config source g few
  have hat : Attempted c ss :=
    attempted_after config source g few fun id => Nat.lt_of_succ_lt (rare id)
  refine ⟨?_, ?_⟩
  · intro now
    rw [← hconfig]
    exact ho.requeueStale_eq now
  · intro now late d
    rw [← hconfig] at late
    refine ⟨?_, ?_⟩
    · intro later
      refine requeueStale_of_all_wait ?_ later
      intro j hj
      have hmem : j.id ∈ d.waiting :=
        (ho.perm_waiting_requeueStale late).mem_iff.mpr (List.mem_map_of_mem hj)
      exact (mem_waiting_iff.mp hmem).1
    · intro times enough e
      obtain ⟨⟨js, hsights, hnodup, hperm, hkept⟩, hempty, hsource, hgenerator⟩ :=
        ho.sights_nexts_requeueStale late enough
      refine ⟨⟨js, hsights, hnodup, hperm, ?_⟩, hgenerator, ?_⟩
      · intro j hj
        obtain ⟨j₀, out, hdata, hagain⟩ := hkept j hj
        obtain ⟨first, hfirst, hid, hsame⟩ := hs.exists_made ha out
        exact ⟨⟨first, hfirst, hid, hsame.trans hdata.symm⟩, j₀, out,
          hat.attempts_again out (rare j.id) hagain⟩
      · intro last
        obtain ⟨hsight, hperform⟩ := next_of_waiting_nil hempty last
        have hnext : e.source.next e.generator = source.next c.generator := by
          rw [show e.source = c.source from hsource, show e.generator = c.generator from hgenerator,
            hs.source]
        refine ⟨(e.generate last).1, hsight, congrArg Prod.fst hnext, ?_⟩
        rw [hperform]
        exact congrArg Prod.snd hnext

/-- Two jobs go out. The first one fails, and nothing is heard of the second. -/
def oneSilent : List Call :=
  [.next 0, .next 1, failure]

/-- The job that failed and the silent one go out again before a third one is made. -/
theorem failed_and_silent_return :
    let c := (new ⟨10, 60, 3⟩ numbered 0).after oneSilent
    let ss := (new ⟨10, 60, 3⟩ numbered 0).sights oneSilent
    let d := (c.requeueStale 100).2
    let e := d.after ([101, 102].map .next)
    (generated ss).length ≤ idCount ∧ (∀ id, handOuts ss id + 1 < idCount) ∧
      (∀ j ∈ c.jobs, 10 < 100 - j.handedOut) ∧
      (∃ js : List Job, d.sights ([101, 102].map .next) = js.map (Sight.handing · false) ∧
        (js.map (·.id)).Nodup ∧ (js.map (·.id)).Perm (c.jobs.map (·.id)) ∧
        ∀ j ∈ js, (∃ first ∈ made ss, first.id = j.id ∧ first.data = j.data) ∧
          ∃ j₀, c.job? j.id = some j₀ ∧ j.attempts.toNat = j₀.attempts.toNat + 1) ∧
      ∃ j, e.sight (.next 103) = .handing j true ∧ j.data = (numbered.next c.generator).1 := by
  intro c ss d e
  have few : (generated ss).length ≤ idCount := by decide
  have rare : ∀ id, handOuts ss id + 1 < idCount := by
    intro id
    refine Nat.lt_of_le_of_lt (Nat.succ_le_succ List.count_le_length) ?_
    decide
  have late : ∀ j ∈ c.jobs, 10 < 100 - j.handedOut := by decide
  have hreturn := (stale_jobs_return_once ⟨10, 60, 3⟩ numbered 0 oneSilent few rare).2 100 late
  obtain ⟨hjobs, -, hfresh⟩ := hreturn.2 [101, 102] rfl
  obtain ⟨j, hsight, hdata, -⟩ := hfresh 103
  exact ⟨few, rare, late, hjobs, j, hsight, hdata⟩

end Coordinator

end Parley
