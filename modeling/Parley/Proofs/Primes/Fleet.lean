import Mathlib.Data.List.Perm.Basic
import Mathlib.Logic.Function.Basic
import Mathlib.Logic.Relation
import Parley.Proofs.Grid.Jobs
import Parley.Proofs.Primes.Count

/-!
# A prime search with any number of workers

The coordinator is asked for jobs, looks for stale ones and is brought failures at any time. Workers
get any job that was ever handed out, as often as may be, and the results that they send may come to
the coordinator at any time, several times or not at all. What the coordinator tells is told to the
tally by several threads, so not in order.

* `Fleet.Step` — everything that can happen next;
* `Fleet.Sound.step`, `Fleet.Sound.run` — jobs are ranges, results are their primes, and every event
  is told once;
* `Fleet.search_ends_right` — what the tally has when it signals the end.
-/

namespace Parley

namespace Primes

open Coordinator (Call Sight Finding Accounted Supplied generated events idCount)

/-- A search under way. -/
structure Fleet where
  coordinator : Coordinator UInt64
  /-- What was seen of the coordinator. -/
  seen : List Sight
  /-- The events that the tally was not told yet. -/
  untold : List JobEvent
  tally : Tally
  workers : Address → Worker SearchParams
  /-- The workers that were told batch and limit. -/
  informed : List Address
  /-- The results that workers sent. -/
  results : List Finding

namespace Fleet

/-- Before anything happens. The number of ranges is computed in words that wrap around. -/
def start (config : GridConfig) (e : Encoding) (p : SearchParams) : Fleet where
  coordinator := .new config (ranges e p) 0
  seen := []
  untold := []
  tally := .new e p.roundedUp
  workers _ := .new (search e) .initial
  informed := []
  results := []

/-- The coordinator is asked for something. -/
def ask (f : Fleet) (call : Call) : Fleet :=
  { f with
    coordinator := f.coordinator.perform call
    seen := f.seen ++ [f.coordinator.sight call]
    untold := f.untold ++ (f.coordinator.sight call).event.toList }

/-- The tally is told an event, and then there are others left. -/
def tell (f : Fleet) (event : JobEvent) (left : List JobEvent) : Fleet :=
  { f with tally := f.tally.take event, untold := left }

/-- The worker at an address changes. -/
def put (f : Fleet) (a : Address) (w : Worker SearchParams) : Fleet :=
  { f with workers := Function.update f.workers a w }

/-- A worker is brought a message. -/
def bring (f : Fleet) (a : Address) (site : Site) (now : Nat) (m : GridMessage) : Fleet :=
  f.put a ((f.workers a).handle site now (.grid m)).1

/-- The message that tells a worker batch and limit. -/
def initData (f : Fleet) : GridMessage :=
  .ofData .initData 0 (f.coordinator.source.init f.coordinator.generator)

/-- Everything that can happen next. -/
inductive Step (e : Encoding) (f : Fleet) : Fleet → Prop
  /-- The coordinator is asked for something, or brought a failure or a result that was sent. -/
  | ask (call : Call) (sent : ∀ r, call.finding? = some r → r ∈ f.results) : Step e f (f.ask call)
  /-- Some thread of the coordinator tells the tally an event. -/
  | tell {event : JobEvent} (front back : List JobEvent)
      (pending : f.untold = front ++ event :: back) : Step e f (f.tell event (front ++ back))
  /-- A worker is told batch and limit. -/
  | inform (a : Address) (site : Site) (now : Nat) :
      Step e f { f.bring a site now f.initData with informed := a :: f.informed }
  /-- A worker gets a job. -/
  | hand (a : Address) (site : Site) (now : Nat) {s : Sight} {j : Job} (seen : s ∈ f.seen)
      (handed : s.handed = some j) : Step e f (f.bring a site now (.ofData .compData j.id j.data))
  /-- A worker that knows batch and limit computes a job and sends the result. -/
  | report {a : Address} (informed : a ∈ f.informed) {j : Job} {w : Worker SearchParams}
      (taken : (f.workers a).take = .job j w) {o : JobOutcome}
      (done : w.computation.compute w.state j = .done o) {net net' : Network}
      (encoding : net.config.encoding = e) (sent : Worker.jobDone net j.id o = .ok net') :
      Step e f { f.put a w with results := ⟨j.id, o.correct, some o.result⟩ :: f.results }
  /-- A worker takes a job and nothing comes of it. -/
  | drop {a : Address} {j : Job} {w : Worker SearchParams}
      (taken : (f.workers a).take = .job j w) : Step e f (f.put a w)

/-- A worker of the search, whose jobs are ranges. -/
structure Prepared (e : Encoding) (p : SearchParams) (w : Worker SearchParams) : Prop where
  computation : w.computation = search e
  queue : ∀ j ∈ w.queue, j.data = rangeJob e (p.start j.id.toNat)

/-- What holds all the time. -/
structure Sound (e : Encoding) (p : SearchParams) (f : Fleet) : Prop where
  accounted : Accounted f.coordinator f.seen
  supplied : Supplied (ranges e p) 0 f.coordinator f.seen
  prepared : ∀ a, Prepared e p (f.workers a)
  informed : ∀ a ∈ f.informed, (f.workers a).state = p
  results : ∀ r ∈ f.results, Enlists e (p.primesOf r.job.toNat) r.data
  events : ∀ event ∈ events f.seen, Tells e p event
  told : ∃ es, (es ++ f.untold).Perm (Coordinator.events f.seen) ∧
    f.tally = (Tally.new e p.roundedUp).hear es

theorem sound_start (config : GridConfig) (e : Encoding) (p : SearchParams) :
    Sound e p (start config e p) where
  accounted := Coordinator.accounted_new config _ _
  supplied := Coordinator.supplied_new config _ _
  prepared := fun _ => ⟨rfl, fun _ h => nomatch h⟩
  informed := fun _ h => nomatch h
  results := fun _ h => nomatch h
  events := fun _ h => nomatch h
  told := ⟨[], .nil, rfl⟩

variable {e : Encoding} {p : SearchParams} {f f' : Fleet}

/-- Jobs that were made stay made. -/
theorem Step.generated_le (h : Step e f f') :
    (generated f.seen).length ≤ (generated f'.seen).length := by
  cases h with
  | ask call sent => exact Coordinator.length_generated_le_snoc _ _
  | _ => exact Nat.le_refl _

/-- What is asked of the coordinator keeps all of this. -/
theorem Sound.ask (h : Sound e p f) (call : Call)
    (sent : ∀ r, call.finding? = some r → r ∈ f.results)
    (few : (generated (f.ask call).seen).length ≤ idCount) : Sound e p (f.ask call) := by
  have hstep := f.coordinator.step_perform call
  have hevents : Coordinator.events (f.ask call).seen =
      Coordinator.events f.seen ++ (f.coordinator.sight call).event.toList :=
    Coordinator.events_snoc _ _
  refine ⟨h.accounted.step hstep few, h.supplied.step h.accounted hstep few, h.prepared,
    h.informed, h.results, ?_, ?_⟩
  · intro event hevent
    rw [hevents, List.mem_append, Option.mem_toList] at hevent
    rcases hevent with hevent | hevent
    · exact h.events event hevent
    · cases event with
      | reported id correct data =>
        exact h.results _ (sent _ (Coordinator.finding?_of_reported hevent))
      | givenUp id => trivial
  · obtain ⟨es, hperm, htally⟩ := h.told
    refine ⟨es, ?_, htally⟩
    rw [hevents]
    show (es ++ (f.untold ++ _)).Perm _
    rw [← List.append_assoc]
    exact hperm.append_right _

/-- An event is told once. -/
theorem Sound.tell (h : Sound e p f) {event : JobEvent} {front back : List JobEvent}
    (pending : f.untold = front ++ event :: back) : Sound e p (f.tell event (front ++ back)) := by
  refine ⟨h.accounted, h.supplied, h.prepared, h.informed, h.results, h.events, ?_⟩
  obtain ⟨es, hperm, htally⟩ := h.told
  refine ⟨es ++ [event], ?_, ?_⟩
  · rw [pending] at hperm
    rw [List.append_assoc, List.singleton_append]
    exact (List.perm_middle.symm.append_left es).trans hperm
  · show f.tally.take event = _
    rw [Tally.hear_snoc, htally]

/-- A worker may change, as long as it goes on with the search and with what it was told. -/
theorem Sound.put (h : Sound e p f) {a : Address} {w : Worker SearchParams}
    (hprepared : Prepared e p w) (hstate : a ∈ f.informed → w.state = p) :
    Sound e p (f.put a w) := by
  refine ⟨h.accounted, h.supplied, ?_, ?_, h.results, h.events, h.told⟩
  · intro b
    show Prepared e p (Function.update f.workers a w b)
    by_cases hb : b = a
    · subst hb
      rw [Function.update_self]
      exact hprepared
    · rw [Function.update_of_ne hb]
      exact h.prepared b
  · intro b hb
    show (Function.update f.workers a w b).state = p
    by_cases hba : b = a
    · subst hba
      rw [Function.update_self]
      exact hstate hb
    · rw [Function.update_of_ne hba]
      exact h.informed b hb

/-- A worker that is told batch and limit knows them. -/
theorem Sound.inform (h : Sound e p f) (a : Address) (site : Site) (now : Nat) :
    Sound e p { f.bring a site now f.initData with informed := a :: f.informed } := by
  have hstate : ((f.workers a).handle site now (.grid f.initData)).1.state = p := by
    show ((f.workers a).computation.setInit
      (f.coordinator.source.init f.coordinator.generator) (f.workers a).state).1 = p
    rw [(h.prepared a).computation, h.supplied.source, setInit_init]
  have hput : Sound e p (f.bring a site now f.initData) :=
    h.put ⟨(h.prepared a).computation, (h.prepared a).queue⟩ fun _ => hstate
  refine ⟨hput.accounted, hput.supplied, hput.prepared, ?_, hput.results, hput.events,
    hput.told⟩
  intro b hb
  rcases List.mem_cons.mp hb with rfl | hb
  · show (Function.update f.workers b _ b).state = p
    rw [Function.update_self]
    exact hstate
  · exact hput.informed b hb

/-- A job that was handed out is a range. -/
theorem Sound.hand (h : Sound e p f) (a : Address) (site : Site) (now : Nat) {s : Sight} {j : Job}
    (seen : s ∈ f.seen) (handed : s.handed = some j) :
    Sound e p (f.bring a site now (.ofData .compData j.id j.data)) := by
  have hdata : j.data = rangeJob e (p.start j.id.toNat) := by
    rw [h.supplied.handed s seen j handed, job_ranges]
  refine h.put ⟨(h.prepared a).computation, ?_⟩ (h.informed a)
  intro other hother
  rcases List.mem_append.mp hother with hother | hother
  · exact (h.prepared a).queue other hother
  · rw [List.mem_singleton] at hother
    subst hother
    exact hdata

theorem Sound.drop (h : Sound e p f) {a : Address} {j : Job} {w : Worker SearchParams}
    (taken : (f.workers a).take = .job j w) : Sound e p (f.put a w) := by
  obtain ⟨rest, hqueue, rfl⟩ := Worker.take_eq_job taken
  refine h.put ⟨(h.prepared a).computation, ?_⟩ (h.informed a)
  intro other hother
  apply (h.prepared a).queue
  rw [hqueue]
  exact List.mem_cons_of_mem _ hother

/-- A result that is sent for a range tells its primes. -/
theorem Sound.report (h : Sound e p f) (hlimit : p.limit.toNat ≤ lastSquare) {a : Address}
    (informed : a ∈ f.informed) {j : Job} {w : Worker SearchParams}
    (taken : (f.workers a).take = .job j w) {o : JobOutcome}
    (done : w.computation.compute w.state j = .done o) {net net' : Network}
    (encoding : net.config.encoding = e) (sent : Worker.jobDone net j.id o = .ok net') :
    Sound e p { f.put a w with results := ⟨j.id, o.correct, some o.result⟩ :: f.results } := by
  have hput := h.drop taken
  obtain ⟨rest, hqueue, rfl⟩ := Worker.take_eq_job taken
  have hdata : j.data = rangeJob e (p.start j.id.toNat) := by
    apply (h.prepared a).queue
    rw [hqueue]
    exact List.mem_cons_self
  have hdone : (search e).compute p j = .done o := by
    rw [← done, (h.prepared a).computation, h.informed a informed]
  refine ⟨hput.accounted, hput.supplied, hput.prepared, hput.informed, ?_, hput.events,
    hput.told⟩
  intro r hr
  rcases List.mem_cons.mp hr with rfl | hr
  · exact enlists_of_jobDone hlimit hdata hdone encoding sent
  · exact h.results r hr

/-- One step keeps all of this, as long as there are ids left. -/
theorem Sound.step (h : Sound e p f) (hlimit : p.limit.toNat ≤ lastSquare) (hs : Step e f f')
    (few : (generated f'.seen).length ≤ idCount) : Sound e p f' := by
  cases hs with
  | ask call sent => exact h.ask call sent few
  | tell front back pending => exact h.tell pending
  | inform a site now => exact h.inform a site now
  | hand a site now seen handed => exact h.hand a site now seen handed
  | report informed taken done encoding sent =>
    exact h.report hlimit informed taken done encoding sent
  | drop taken => exact h.drop taken

/-- A whole run keeps all of this. -/
theorem Sound.run {f₀ : Fleet} (h : Sound e p f₀) (hlimit : p.limit.toNat ≤ lastSquare)
    (hrun : Relation.ReflTransGen (Step e) f₀ f)
    (few : (generated f.seen).length ≤ idCount) : Sound e p f := by
  induction hrun with
  | refl => exact h
  | tail _ hs ih => exact (ih (Nat.le_trans hs.generated_le few)).step hlimit hs few

/-! ## The end of a search -/

/-- The ranges that were given up. -/
def failed (p : SearchParams) (f : Fleet) : Finset Nat :=
  (Finset.range p.needed).filter fun k =>
    JobEvent.givenUp (UInt32.ofNat k) ∈ Coordinator.events f.seen

/-- The primes below the limit, but for those in ranges that were given up. -/
def expected (p : SearchParams) (f : Fleet) : Finset Nat :=
  (Finset.range p.limit.toNat).filter fun n => n.Prime ∧ n / p.batch.toNat ∉ f.failed p

/-- When all ranges are told of, a range is told to be given up exactly if it was. -/
theorem rangesOf_isGivenUp {es : List JobEvent}
    (hnodup : ((Coordinator.events f.seen).map JobEvent.job).Nodup)
    (htold : ∀ event ∈ es, event ∈ Coordinator.events f.seen)
    (hall : rangesOf isReport p es ∪ rangesOf isGivenUp p es = Finset.range p.needed) :
    rangesOf isGivenUp p es = f.failed p := by
  ext k
  rw [failed, Finset.mem_filter, Finset.mem_range]
  constructor
  · intro hk
    obtain ⟨hlt, event, hevent, hkind, rfl⟩ := mem_rangesOf.mp hk
    cases event with
    | reported job correct data => cases hkind
    | givenUp job =>
      refine ⟨hlt, ?_⟩
      show JobEvent.givenUp (UInt32.ofNat job.toNat) ∈ _
      rw [UInt32.ofNat_toNat]
      exact htold _ hevent
  · rintro ⟨hlt, hgivenUp⟩
    have hk : k ∈ rangesOf isReport p es ∪ rangesOf isGivenUp p es := by
      rw [hall]
      exact Finset.mem_range.mpr hlt
    rcases Finset.mem_union.mp hk with hk | hk
    · -- it cannot be reported as well
      obtain ⟨-, event, hevent, hkind, rfl⟩ := mem_rangesOf.mp hk
      have hsame : event = .givenUp (UInt32.ofNat event.job.toNat) :=
        List.inj_on_of_nodup_map hnodup (htold event hevent) hgivenUp UInt32.ofNat_toNat.symm
      rw [hsame] at hkind
      cases hkind
    · exact hk

/-- The primes of the ranges that were searched are those that are not in ranges given up. -/
theorem found_isReport {es : List JobEvent} (hbatch : 0 < p.batch.toNat)
    (hfailed : rangesOf isGivenUp p es = f.failed p)
    (hall : rangesOf isReport p es ∪ rangesOf isGivenUp p es = Finset.range p.needed)
    (hdisjoint : Disjoint (rangesOf isReport p es) (rangesOf isGivenUp p es)) :
    p.found (rangesOf isReport p es) = f.expected p := by
  have hreport : rangesOf isReport p es = Finset.range p.needed \ f.failed p := by
    rw [← hall, ← hfailed, Finset.union_sdiff_cancel_right hdisjoint]
  ext n
  rw [p.found_eq, Finset.mem_filter, expected, Finset.mem_filter, Finset.mem_range, hreport,
    p.mem_biUnion_span hbatch Finset.sdiff_subset, Finset.mem_sdiff, Finset.mem_range]
  constructor
  · rintro ⟨⟨hlt, -, hnot⟩, hprime⟩
    exact ⟨hlt, hprime, hnot⟩
  · rintro ⟨hlt, hprime, hnot⟩
    refine ⟨⟨hlt, ?_, hnot⟩, hprime⟩
    rw [p.lt_needed_iff hbatch]
    exact Nat.lt_of_le_of_lt (Nat.div_mul_le_self _ _) hlt

/-- When the end is signalled every range was searched or given up, and the tally has the number of
the primes in the ranges that were not given up and the greatest of them. If none was given up these
are the number of all primes below the limit and the greatest of these. -/
theorem search_ends_right (config : GridConfig) (e : Encoding) {p : SearchParams}
    (hlimit : 0 < p.limit) (hbatch : 0 < p.batch)
    (hsum : p.limit.toNat + p.batch.toNat - 1 < 2 ^ 64)
    (hsquare : p.limit.toNat ≤ (2 ^ 32 - 1) ^ 2) {f : Fleet}
    (hrun : Relation.ReflTransGen (Step e) (start config e p) f)
    (few : (generated f.seen).length ≤ idCount) (hdone : 0 < f.tally.signals) :
    f.tally.ranges + f.tally.failed = p.limit.toNat ⌈/⌉ p.batch.toNat ∧
      f.tally.failed = (f.failed p).card ∧
      f.tally.primes = (f.expected p).card ∧
      f.tally.largest.toNat = (f.expected p).sup id ∧
      (f.tally.failed = 0 →
        f.tally.primes = ((Finset.range p.limit.toNat).filter Nat.Prime).card ∧
          f.tally.largest.toNat = ((Finset.range p.limit.toNat).filter Nat.Prime).sup id) := by
  have hlimit' : 0 < p.limit.toNat := UInt64.lt_iff_toNat_lt.mp hlimit
  have hbatch' : 0 < p.batch.toNat := UInt64.lt_iff_toNat_lt.mp hbatch
  have hneeded : p.roundedUp.toNat = p.needed := p.toNat_roundedUp hbatch' hsum
  have hpos : 0 < p.needed := by
    rw [p.lt_needed_iff hbatch', Nat.zero_mul]
    exact hlimit'
  have hsound : Sound e p f := (sound_start config e p).run hsquare hrun few
  obtain ⟨es, hperm, htally⟩ := hsound.told
  have hall := hsound.accounted.events_nodup
  have htold : ∀ event ∈ es, event ∈ Coordinator.events f.seen := fun event hevent =>
    hperm.subset (List.mem_append_left _ hevent)
  have hnodup : (es.map JobEvent.job).Nodup := by
    have hboth := (hperm.map JobEvent.job).nodup_iff.mpr hall
    rw [List.map_append] at hboth
    exact hboth.of_append_left
  have hcounted := Tally.counted_hear e hbatch' hneeded hnodup fun event hevent =>
    hsound.events event (htold event hevent)
  rw [htally] at hdone
  obtain ⟨hunion, hdisjoint⟩ := hcounted.complete hpos hneeded hnodup hdone
  have hfailed := rangesOf_isGivenUp hall htold hunion
  have hfound := found_isReport hbatch' hfailed hunion hdisjoint
  rw [← htally] at hcounted
  have hfailures : f.tally.failed = (f.failed p).card := hfailed ▸ hcounted.failures
  have hprimes : f.tally.primes = (f.expected p).card := hfound ▸ hcounted.primes
  have hlargest : f.tally.largest.toNat = (f.expected p).sup id := hfound ▸ hcounted.largest
  refine ⟨?_, hfailures, hprimes, hlargest, ?_⟩
  · rw [hcounted.ranges, hcounted.failures, ← Finset.card_union_of_disjoint hdisjoint, hunion,
      Finset.card_range]
    rfl
  · intro hnone
    have hexpected : f.expected p = (Finset.range p.limit.toNat).filter Nat.Prime := by
      rw [hfailures, Finset.card_eq_zero] at hnone
      simp [expected, hnone]
    rw [hprimes, hlargest, hexpected]
    exact ⟨rfl, rfl⟩

/-- The end of the server in the run below. -/
def host : Site := .new (.new .server .default (.ipv4 10 8 8 8 8) none)

/-- The end of a worker in the run below. -/
def guest : Site := .new (.new .client .default (.ipv4 10 0 0 1 1) (some (.ipv4 10 8 8 8 8)))

/-- The numbers below three in ranges of two, and no second attempt. -/
def small : Fleet := start { GridConfig.default with maxAttempts := 1 } .bincode ⟨2, 3⟩

/-- The first range of the search fails and is given up, and a worker finds the prime in the second
one. The tally is told of the second range first. -/
theorem exists_ended :
    ∃ f : Fleet, Relation.ReflTransGen (Step .bincode) small f ∧
      (generated f.seen).length ≤ idCount ∧ 0 < f.tally.signals ∧ f.tally.failed = 1 := by
  have first := Relation.ReflTransGen.refl.tail
    (Step.ask (e := .bincode) (f := small) (.next 0) fun _ h => nomatch h)
  have second := first.tail (.ask (.next 0) fun _ h => nomatch h)
  have informed := second.tail (.inform guest.net.localAddress guest 0)
  have handed := informed.tail
    (.hand guest.net.localAddress guest 0 (j := ⟨1, [2, 0, 0, 0, 0, 0, 0, 0], 0, 1⟩)
      (List.mem_append_right _ List.mem_cons_self) rfl)
  have computed := handed.tail (.report List.mem_cons_self rfl
    (o := ⟨true, [1, 0, 0, 0, 0, 0, 0, 0, 2, 0, 0, 0, 0, 0, 0, 0]⟩) rfl
    (show guest.net.config.encoding = .bincode from rfl) rfl)
  have failed := computed.tail
    (.ask (.message host 0 guest.net.localAddress (.grid (.ofJob .compError 0)))
      fun _ h => nomatch h)
  have reported := failed.tail
    (.ask (.message host 0 guest.net.localAddress (.grid (.ofData .compSuccessful 1
        [1, 0, 0, 0, 0, 0, 0, 0, 2, 0, 0, 0, 0, 0, 0, 0])))
      fun _ h => by
        cases h
        exact List.mem_cons_self)
  have told := reported.tail (.tell [.givenUp 0] [] rfl)
  have ended := told.tail (.tell [] [] rfl)
  exact ⟨_, ended, by decide, by decide, by decide⟩

/-- The prime in the second range is all that is found, and the first range counts as failed. -/
theorem small_search_ends :
    ∃ f : Fleet, (0 : UInt64) < 3 ∧ (0 : UInt64) < 2 ∧
      (3 : UInt64).toNat + (2 : UInt64).toNat - 1 < 2 ^ 64 ∧
      (3 : UInt64).toNat ≤ (2 ^ 32 - 1) ^ 2 ∧
      Relation.ReflTransGen (Step .bincode) small f ∧
      (generated f.seen).length ≤ idCount ∧ 0 < f.tally.signals ∧ f.tally.failed = 1 ∧
      f.tally.ranges + f.tally.failed = (3 : UInt64).toNat ⌈/⌉ (2 : UInt64).toNat ∧
      f.tally.failed = (f.failed ⟨2, 3⟩).card ∧
      f.tally.primes = (f.expected ⟨2, 3⟩).card ∧
      f.tally.largest.toNat = (f.expected ⟨2, 3⟩).sup id := by
  obtain ⟨f, hrun, few, hdone, hfailed⟩ := exists_ended
  obtain ⟨hranges, hfailures, hprimes, hlargest, -⟩ :=
    search_ends_right { GridConfig.default with maxAttempts := 1 } .bincode
      (p := ⟨2, 3⟩) (by decide) (by decide) (by decide) (by decide) hrun few hdone
  exact ⟨f, by decide, by decide, by decide, by decide, hrun, few, hdone, hfailed, hranges,
    hfailures, hprimes, hlargest⟩

end Fleet

end Primes

end Parley
