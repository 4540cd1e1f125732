import Mathlib.Logic.Function.Basic
import Mathlib.Logic.Relation
import Parley.Proofs.Grid.Crew
import Parley.Proofs.Grid.Jobs

/-!
# Results belong to their jobs

A coordinator with any number of workers, and between each worker and the coordinator a connection
that delivers messages in order (`Channel.delivered_in_order`) until it is lost. The coordinator is
asked for jobs and looks for stale ones at any time, threads move in any order, and workers register
and are shut down when they like.

* `Grid.Step`, `Grid.run_of_row` — everything that can happen next, and threads that nobody comes
  between;
* `Grid.Sound.step`, `Grid.Sound.run` — every job in a message, in a queue or in the hands of a
  thread is as it was made, and every result comes of its job;
* `Grid.reported_is_computed` — the results that are reported.
-/

namespace Parley

/-- The data of the job that goes by an id. -/
def JobSource.payload {γ : Type} (s : JobSource γ) (g : γ) (id : JobId) : Bytes :=
  s.job g id.toNat

namespace Coordinator

variable {γ : Type}

/-- What is under way to a worker after its message was handled. -/
def replies (c : Coordinator γ) (site : Site) (now : Nat) (a : Address) (m : Message) :
    List Message :=
  match c.reply? now m with
  | some (r, _) => r.sent (site.net.send a (.grid r))
  | none => []

/-- Handling a message sends nothing but the reply. -/
theorem net_handle (c : Coordinator γ) (site : Site) (now : Nat) (a : Address) (m : Message) :
    (c.handle site now a m).site.net =
      match c.reply? now m with
      | some (r, _) => (site.net.send a (.grid r)).toOption.getD site.net
      | none => site.net := by
  have htell : ∀ (c : Coordinator γ) (r : GridMessage),
      (c.tell site a r).site.net = (site.net.send a (.grid r)).toOption.getD site.net := by
    intro c r
    unfold tell
    cases site.net.send a (.grid r) <;> rfl
  cases m with
  | grid m =>
    obtain ⟨kind, id, data⟩ := m
    cases kind with
    | register => exact htell _ _
    | newData => exact htell _ _
    | compError =>
      show (c.jobError site id).2.1.net = site.net
      unfold jobError
      split
      · rfl
      · split
        · rfl
        · split <;> rfl
    | _ => rfl
  | _ => rfl

/-- Sending what is under way leads to the network that handling a message leads to. -/
theorem foldlM_replies (c : Coordinator γ) (site : Site) (now : Nat) (a : Address) (m : Message) :
    (c.replies site now a m).foldlM (fun net r => net.send a r) site.net =
      .ok (c.handle site now a m).site.net := by
  rw [net_handle]
  unfold replies
  cases c.reply? now m with
  | none => rfl
  | some r => exact r.1.foldlM_sent (fun net r => net.send a r) site.net

/-- A job that is answered was handed out, and so is as it was made. -/
theorem Supplied.brings {source : JobSource γ} {g : γ} {c c' : Coordinator γ} {ss : List Sight}
    {site : Site} {now : Nat} {a : Address} {m : Message}
    (h : Supplied source g c' (ss ++ [c.sight (.message site now a m)])) :
    ∀ r ∈ c.replies site now a m, r.Brings (source.payload g) := by
  intro r hr
  unfold replies at hr
  cases m with
  | grid m =>
    obtain ⟨kind, id, data⟩ := m
    cases kind with
    | register =>
      rw [GridMessage.mem_sent hr]
      intro id data heq
      cases heq
    | newData =>
      rw [GridMessage.mem_sent hr]
      intro id data heq
      cases heq
      exact h.handed _ (List.mem_append_right _ List.mem_cons_self) (c.nextJob now).1 rfl
    | _ => cases hr
  | _ => cases hr

end Coordinator

open Coordinator (Call Sight Accounted Supplied generated events idCount made)

/-- A coordinator and its workers. -/
structure Grid (γ σ : Type) where
  coordinator : Coordinator γ
  /-- What was seen of the coordinator. -/
  seen : List Sight
  crews : Address → Crew σ
  /-- The messages that are under way to the coordinator, the oldest first. -/
  up : Address → List Message
  /-- The messages that are under way to a worker, the oldest first. -/
  down : Address → List Message

namespace Grid

variable {γ σ : Type}

/-- Before anything happens. -/
def start (config : GridConfig) (source : JobSource γ) (g : γ) (computation : Computation σ)
    (state : σ) : Grid γ σ where
  coordinator := .new config source g
  seen := []
  crews _ := .new computation state
  up _ := []
  down _ := []

/-- The coordinator is asked for something. -/
def ask (w : Grid γ σ) (call : Call) : Grid γ σ :=
  { w with
    coordinator := w.coordinator.perform call
    seen := w.seen ++ [w.coordinator.sight call] }

/-- The worker at an address changes. -/
def setCrew (w : Grid γ σ) (a : Address) (c : Crew σ) : Grid γ σ :=
  { w with crews := Function.update w.crews a c }

def setUp (w : Grid γ σ) (a : Address) (ms : List Message) : Grid γ σ :=
  { w with up := Function.update w.up a ms }

def setDown (w : Grid γ σ) (a : Address) (ms : List Message) : Grid γ σ :=
  { w with down := Function.update w.down a ms }

/-- Everything that can happen next. -/
inductive Step (computation : Computation σ) (w : Grid γ σ) : Grid γ σ → Prop
  | next (now : Nat) : Step computation w (w.ask (.next now))
  | requeue (now : Nat) : Step computation w (w.ask (.requeue now))
  /-- The coordinator handles the next message of a worker. -/
  | hear {a : Address} {m : Message} {rest : List Message} (site : Site) (now : Nat)
      (arrived : w.up a = m :: rest) :
      Step computation w (((w.ask (.message site now a m)).setUp a rest).setDown a
        (w.down a ++ w.coordinator.replies site now a m))
  /-- A worker handles the next message for it. -/
  | deliver {a : Address} {m : Message} {rest : List Message} (site : Site) (now : Nat)
      (arrived : w.down a = m :: rest) :
      Step computation w ((w.setDown a rest).setCrew a
        { w.crews a with worker := ((w.crews a).worker.handle site now m).1 })
  /-- A thread of a worker moves. -/
  | move {a : Address} {ms : List Message} {c : Crew σ} (moves : (w.crews a).Moves ms c) :
      Step computation w ((w.setCrew a c).setUp a (w.up a ++ ms))
  /-- There is a new worker. -/
  | join (a : Address) (state : σ) : Step computation w (w.setCrew a (.new computation state))
  /-- A connection is lost, with messages that are under way. -/
  | cut (a : Address) {ups downs : List Message} (hup : ups.Sublist (w.up a))
      (hdown : downs.Sublist (w.down a)) : Step computation w ((w.setUp a ups).setDown a downs)
  /-- Both ends of a connection send messages that are not about jobs. -/
  | chat (a : Address) {ups downs : List Message} (hup : ∀ m ∈ ups, m.kind ≠ .grid)
      (hdown : ∀ m ∈ downs, m.kind ≠ .grid) :
      Step computation w ((w.setUp a (w.up a ++ ups)).setDown a (w.down a ++ downs))

/-- A row of steps in a worker that nobody comes between is a part of a run. -/
theorem run_of_row {computation : Computation σ} {w : Grid γ σ} {a : Address} {ms : List Message}
    {c : Crew σ} (h : (w.crews a).Row ms c) :
    Relation.ReflTransGen (Step computation) w ((w.setCrew a c).setUp a (w.up a ++ ms)) := by
  induction h with
  | nil =>
    have hsame : (w.setCrew a (w.crews a)).setUp a (w.up a ++ []) = w := by
      simp [setCrew, setUp]
    rw [hsame]
  | @snoc ms ms' c' c'' _ moves ih =>
    have hcrew : ((w.setCrew a c').setUp a (w.up a ++ ms)).crews a = c' := by
      simp [setCrew, setUp]
    have run := ih.tail (.move (hcrew ▸ moves))
    simpa [setCrew, setUp] using run

/-- What holds all the time. -/
structure Sound (source : JobSource γ) (g : γ) (f : Bytes → Computed) (w : Grid γ σ) : Prop where
  accounted : Accounted w.coordinator w.seen
  supplied : Supplied source g w.coordinator w.seen
  crews : ∀ a, (w.crews a).Sound (source.payload g) f
  up : ∀ a, ∀ m ∈ w.up a, m.Tells (source.payload g) f
  down : ∀ a, ∀ m ∈ w.down a, m.Brings (source.payload g)
  events : ∀ id correct data, JobEvent.reported id correct data ∈ events w.seen →
    (f (source.payload g id)).finding? id = some ⟨id, correct, data⟩

variable {source : JobSource γ} {g : γ} {f : Bytes → Computed} {computation : Computation σ}
  {w w' : Grid γ σ}

theorem sound_start (config : GridConfig) (source : JobSource γ) (g : γ)
    (fixed : ∀ s j, computation.compute s j = f j.data) (state : σ) :
    (start config source g computation state).Sound source g f where
  accounted := Coordinator.accounted_new config source g
  supplied := Coordinator.supplied_new config source g
  crews := fun _ => Crew.sound_new _ fixed state
  up := fun _ _ h => nomatch h
  down := fun _ _ h => nomatch h
  events := fun _ _ _ h => nomatch h

theorem Sound.setCrew (h : w.Sound source g f) (a : Address) {c : Crew σ}
    (hc : c.Sound (source.payload g) f) : (w.setCrew a c).Sound source g f := by
  refine ⟨h.accounted, h.supplied, ?_, h.up, h.down, h.events⟩
  exact (Function.forall_update_iff w.crews fun _ c => c.Sound (source.payload g) f).mpr
    ⟨hc, fun b _ => h.crews b⟩

theorem Sound.setUp (h : w.Sound source g f) (a : Address) {ms : List Message}
    (hms : ∀ m ∈ ms, m.Tells (source.payload g) f) : (w.setUp a ms).Sound source g f := by
  refine ⟨h.accounted, h.supplied, h.crews, ?_, h.down, h.events⟩
  exact (Function.forall_update_iff w.up fun _ ms => ∀ m ∈ ms, m.Tells (source.payload g) f).mpr
    ⟨hms, fun b _ => h.up b⟩

theorem Sound.setDown (h : w.Sound source g f) (a : Address) {ms : List Message}
    (hms : ∀ m ∈ ms, m.Brings (source.payload g)) : (w.setDown a ms).Sound source g f := by
  refine ⟨h.accounted, h.supplied, h.crews, h.up, ?_, h.events⟩
  exact (Function.forall_update_iff w.down fun _ ms => ∀ m ∈ ms, m.Brings (source.payload g)).mpr
    ⟨hms, fun b _ => h.down b⟩

/-- What is asked of the coordinator keeps all of this, if a result that it brings comes of its
job. -/
theorem Sound.ask (h : w.Sound source g f) {call : Call}
    (few : (generated (w.ask call).seen).length ≤ idCount)
    (told : ∀ r, call.finding? = some r → (f (source.payload g r.job)).finding? r.job = some r) :
    (w.ask call).Sound source g f := by
  have hstep := w.coordinator.step_perform call
  refine ⟨h.accounted.step hstep few, h.supplied.step h.accounted hstep few, h.crews, h.up, h.down,
    ?_⟩
  intro id correct data hevent
  rw [show Coordinator.events (w.ask call).seen = _ from Coordinator.events_snoc _ _,
    List.mem_append, Option.mem_toList] at hevent
  rcases hevent with hevent | hevent
  · exact h.events id correct data hevent
  · exact told ⟨id, correct, data⟩ (Coordinator.finding?_of_reported hevent)

/-- Jobs that were made stay made. -/
theorem Step.generated_le (h : Step computation w w') :
    (generated w.seen).length ≤ (generated w'.seen).length := by
  cases h with
  | next now => exact Coordinator.length_generated_le_snoc _ _
  | requeue now => exact Coordinator.length_generated_le_snoc _ _
  | hear site now arrived => exact Coordinator.length_generated_le_snoc _ _
  | _ => exact Nat.le_refl _

/-- One step keeps all of this, as long as there are ids left. -/
theorem Sound.step (h : w.Sound source g f) (fixed : ∀ s j, computation.compute s j = f j.data)
    (hs : Step computation w w') (few : (generated w'.seen).length ≤ idCount) :
    w'.Sound source g f := by
  cases hs with
  | next now => exact h.ask few fun r hr => nomatch hr
  | requeue now => exact h.ask few fun r hr => nomatch hr
  | @hear a m rest site now arrived =>
    have hup := h.up a
    rw [arrived] at hup
    have hask : (w.ask (.message site now a m)).Sound source g f :=
      h.ask few (hup m List.mem_cons_self site now a)
    refine (hask.setUp a ?_).setDown a ?_
    · intro other hother
      exact hup other (List.mem_cons_of_mem _ hother)
    · intro r hr
      rcases List.mem_append.mp hr with hr | hr
      · exact h.down a r hr
      · exact hask.supplied.brings r hr
  | @deliver a m rest site now arrived =>
    have hdown := h.down a
    rw [arrived] at hdown
    refine (h.setDown a ?_).setCrew a ?_
    · intro other hother
      exact hdown other (List.mem_cons_of_mem _ hother)
    · exact (h.crews a).handle (hdown m List.mem_cons_self) site now
  | @move a ms c moves =>
    obtain ⟨hcrew, htold⟩ := (h.crews a).move moves
    refine (h.setCrew a hcrew).setUp a ?_
    intro m hm
    rcases List.mem_append.mp hm with hm | hm
    · exact h.up a m hm
    · exact htold m hm
  | join a state => exact h.setCrew a (Crew.sound_new _ fixed state)
  | cut a hup hdown =>
    refine (h.setUp a ?_).setDown a ?_
    · intro m hm
      exact h.up a m (hup.subset hm)
    · intro m hm
      exact h.down a m (hdown.subset hm)
  | chat a hup hdown =>
    refine (h.setUp a ?_).setDown a ?_
    · intro m hm
      rcases List.mem_append.mp hm with hm | hm
      · exact h.up a m hm
      · intro site now b r hr
        cases m with
        | grid body => exact absurd rfl (hup _ hm)
        | _ => cases hr
    · intro m hm
      rcases List.mem_append.mp hm with hm | hm
      · exact h.down a m hm
      · rintro id data rfl
        exact absurd rfl (hdown _ hm)

/-- A whole run keeps all of this. -/
theorem Sound.run {w₀ : Grid γ σ} (h : w₀.Sound source g f)
    (fixed : ∀ s j, computation.compute s j = f j.data)
    (hrun : Relation.ReflTransGen (Step computation) w₀ w)
    (few : (generated w.seen).length ≤ idCount) : w.Sound source g f := by
  induction hrun with
  | refl => exact h
  | tail _ hs ih => exact (ih (Nat.le_trans hs.generated_le few)).step fixed hs few

/-- A computation that gives a result was done. -/
theorem eq_done_of_finding? {result : Computed} {id : JobId} {correct : Bool} {data : Option Bytes}
    (h : result.finding? id = some ⟨id, correct, data⟩) :
    ∃ bytes, result = .done ⟨correct, bytes⟩ ∧ data = some bytes := by
  cases result with
  | done o =>
    cases h
    exact ⟨o.result, rfl, rfl⟩
  | failed cause => cases h
  | broke => cases h

/-- In every run in which computing depends on the data of a job only, the jobs that were made have
the data that the source made, in order. A result that is reported for an id is what computing gives
for the data of the one job that was made with this id. No result is reported for a job that cannot
be computed. -/
theorem reported_is_computed (config : GridConfig) (source : JobSource γ) (g : γ)
    (computation : Computation σ) (state : σ)
    (fixed : ∀ s j, computation.compute s j = f j.data)
    (hrun : Relation.ReflTransGen (Step computation) (start config source g computation state) w)
    (few : (generated w.seen).length ≤ idCount) :
    (made w.seen).map (·.data) = source.take (made w.seen).length g ∧
      (∀ id correct data, .reported id correct data ∈ events w.seen →
        ∃ j ∈ made w.seen, (∀ other ∈ made w.seen, other.id = id ↔ other = j) ∧
          ∃ bytes, f j.data = .done ⟨correct, bytes⟩ ∧ data = some bytes) ∧
      ∀ j ∈ made w.seen, (∀ o, f j.data ≠ .done o) →
        ∀ correct data, .reported j.id correct data ∉ events w.seen := by
  have hsound : w.Sound source g f :=
    (sound_start config source g fixed state).run fixed hrun few
  have hcomputed : ∀ j ∈ made w.seen, ∀ correct data,
      .reported j.id correct data ∈ events w.seen →
        ∃ bytes, f j.data = .done ⟨correct, bytes⟩ ∧ data = some bytes := by
    intro j hj correct data hevent
    rw [hsound.supplied.data_of_mem_made hj]
    exact eq_done_of_finding? (hsound.events j.id correct data hevent)
  refine ⟨hsound.supplied.map_data_made hsound.accounted few, ?_, ?_⟩
  · intro id correct data hevent
    have hid : id ∈ generated w.seen := hsound.accounted.mem_generated_of_mem_events hevent
    obtain ⟨j, ⟨hj, rfl⟩, hunique⟩ := hsound.accounted.existsUnique_made few hid
    refine ⟨j, hj, ?_, hcomputed j hj correct data hevent⟩
    intro other hother
    refine ⟨fun heq => hunique other ⟨hother, heq⟩, ?_⟩
    rintro rfl
    rfl
  · intro j hj hfails correct data hevent
    obtain ⟨bytes, hdone, -⟩ := hcomputed j hj correct data hevent
    exact hfails _ hdone

/-- Breaks off for the first of some numbered jobs, and gives back the number of any other. -/
def givesBack : Bytes → Computed
  | [0] => .broke
  | data => .done ⟨true, data⟩

def givingBack : Computation Unit := ⟨fun _ s => (s, none), fun _ j => givesBack j.data⟩

/-- The end of the worker in the run below. -/
def guest : Site := .new (.new .client .default (.ipv4 10 0 0 1 1) (some (.ipv4 10 8 8 8 8)))

/-- The end of the coordinator in the run below. -/
def host : Site :=
  .new ((Network.new .server .default (.ipv4 10 8 8 8 8) none).connect (.ipv4 10 0 0 1 1))

/-- A first job goes out and is not heard of again. A worker registers, asks for a job and gets the
second one, and its result comes back. -/
theorem exists_reported :
    ∃ w : Grid Nat Unit,
      Relation.ReflTransGen (Step givingBack)
        (start .default Coordinator.numbered 0 givingBack ()) w ∧
      (generated w.seen).length ≤ idCount ∧ events w.seen = [.reported 1 true (some [1])] := by
  let a : Address := .ipv4 10 0 0 1 1
  have run : Relation.ReflTransGen (Step givingBack)
      (start .default Coordinator.numbered 0 givingBack ()) _ := .tail .refl (.next 0)
  have run := run.tail (.move (a := a) (.initiate (show Worker.initiate _ guest 1 = _ from rfl)))
  have run := run.tail (.hear (a := a) host 0 rfl)
  have run := run.tail (.deliver (a := a) guest 0 rfl)
  have run := run.tail (.move (a := a) (.enter (i := 0) rfl rfl rfl))
  have run := run.tail
    (.move (a := a) (.ask (i := 0) rfl (show Worker.ask _ guest.net = _ from rfl)))
  have run := run.tail (.hear (a := a) host 0 rfl)
  have run := run.tail (.deliver (a := a) guest 0 rfl)
  have run := run.tail (.move (a := a) (.take (i := 0) rfl rfl))
  have run := run.tail (.move (a := a) (.compute (i := 0) rfl))
  have run := run.tail (.move (a := a) (.report (i := 0) guest.net rfl))
  have run := run.tail (.hear (a := a) host 0 rfl)
  exact ⟨_, run, by decide, by decide⟩

/-- What is reported for the second job is its own number, and nothing is reported for the first. -/
theorem second_job_is_given_back :
    ∃ w : Grid Nat Unit,
      (∀ s j, givingBack.compute s j = givesBack j.data) ∧
        Relation.ReflTransGen (Step givingBack)
          (start .default Coordinator.numbered 0 givingBack ()) w ∧
        (generated w.seen).length ≤ idCount ∧ events w.seen = [.reported 1 true (some [1])] ∧
        (made w.seen).map (·.data) = Coordinator.numbered.take (made w.seen).length 0 ∧
        (∃ j ∈ made w.seen, (∀ other ∈ made w.seen, other.id = 1 ↔ other = j) ∧
          ∃ bytes, givesBack j.data = .done ⟨true, bytes⟩ ∧ some [1] = some bytes) ∧
        ∀ j ∈ made w.seen, (∀ o, givesBack j.data ≠ .done o) →
          ∀ correct data, .reported j.id correct data ∉ events w.seen := by
  obtain ⟨w, hrun, few, hevents⟩ := exists_reported
  have fixed : ∀ s j, givingBack.compute s j = givesBack j.data := fun _ _ => rfl
  obtain ⟨hdata, hreported, hfailed⟩ :=
    reported_is_computed .default Coordinator.numbered 0 givingBack () fixed hrun few
  have hevent : .reported 1 true (some [1]) ∈ events w.seen := by
    rw [hevents]
    exact List.mem_cons_self
  exact ⟨w, fixed, hrun, few, hevents, hdata, hreported 1 true (some [1]) hevent, hfailed⟩

end Grid

end Parley
