import Parley.Proofs.Grid.Berth
import Parley.Proofs.Pool.Order

/-!
# A coordinator and its workers, each behind a pool

Any number of workers, each of them with any number of compute threads, and a coordinator. The
messages for each of them are handled by a pool with any number of lanes. Between a worker and the
coordinator there is a connection that delivers in order what could be sent
(`Channel.delivered_in_order`); nothing says when it does, or that it does: what is under way when a
connection is lost is never delivered. An address is that of one worker only.

The coordinator works out an answer first, and sends it later. Between all this other lanes, threads
and connections may do anything.

* `Plant.Step` — everything that can happen next;
* `Plant.run_handled` — a lane of the coordinator that nobody comes between does what
  `Coordinator.handle` does;
* `Plant.Sound.berth_moves` — what a step is for one worker: one of the moves of a berth, as a pool
  hears each sender in its order;
* `Plant.inits_before_jobs` — a worker that was greeted was given init data before it computes.
-/

namespace Parley

namespace Workshop

variable {σ : Type} {place : Address → Nat} {w : Workshop σ}

/-- Somebody brings a message. -/
def bring (w : Workshop σ) (l : Letter) : Workshop σ :=
  { w with
    pool := w.pool.process l
    queued := w.queued ++ if w.pool.accepting then [l] else [] }

/-- The worker of a lane begins with a message. -/
def begin (w : Workshop σ) (lane : Nat) (l : Letter) (rest : List Letter) : Workshop σ :=
  { w with
    pool := w.pool.setLane lane rest
    hands := Function.update w.hands lane (some l)
    begun := w.begun ++ [l] }

/-- The worker of a lane is through with a message. -/
def finish (w : Workshop σ) (lane : Nat) (l : Letter) : Workshop σ :=
  { w with
    pool := w.pool.settle lane l
    hands := Function.update w.hands lane none
    ended := w.ended ++ [(l, (w.pool.worker w.pool.state l).2)] }

/-- What a sender says in some letters. -/
def told (a : Address) (letters : List Letter) : List Message :=
  (heardFrom a letters).map (·.message)

theorem told_append (a : Address) (ls ms : List Letter) :
    told a (ls ++ ms) = told a ls ++ told a ms := by
  rw [told, heardFrom_append, List.map_append, told, told]

theorem told_self (l : Letter) : told l.sender [l] = [l.message] := by
  simp [told, heardFrom]

theorem told_of_ne {a : Address} {l : Letter} (h : a ≠ l.sender) : told a [l] = [] := by
  simp [told, heardFrom, Ne.symm h]

theorem queued_bring (hopen : w.pool.accepting = true) (l : Letter) :
    (w.bring l).queued = w.queued ++ [l] := by
  simp [bring, hopen]

@[simp] theorem handled_bring (l : Letter) : (w.bring l).handled = w.handled :=
  rfl

@[simp] theorem queued_begin (lane : Nat) (l : Letter) (rest : List Letter) :
    (w.begin lane l rest).queued = w.queued :=
  rfl

@[simp] theorem handled_begin (lane : Nat) (l : Letter) (rest : List Letter) :
    (w.begin lane l rest).handled = w.handled :=
  rfl

@[simp] theorem queued_finish (lane : Nat) (l : Letter) : (w.finish lane l).queued = w.queued :=
  rfl

@[simp] theorem handled_finish (lane : Nat) (l : Letter) :
    (w.finish lane l).handled = w.handled ++ [l] :=
  List.map_append

namespace Sound

/-- What the worker of a lane has in hand comes from a sender of that lane. -/
theorem place_of_hand (h : w.Sound place) {lane : Nat} {l : Letter}
    (hhand : w.hands lane = some l) :
    place l.sender = lane ∧ l ∈ w.queued := by
  have hbegun : l ∈ onLane place lane w.begun := by
    rw [h.begun, hhand]
    simp
  refine ⟨place_of_mem_onLane hbegun, ?_⟩
  have hqueued : l ∈ onLane place lane w.queued := by
    rw [h.queued]
    exact List.mem_append_left _ hbegun
  exact (List.mem_filter.mp hqueued).1

/-- A sender is heard in its order, up to what is in hand. -/
theorem told_of_hand (h : w.Sound place) {lane : Nat} {l : Letter} (hhand : w.hands lane = some l) :
    told l.sender w.handled ++ [l.message] <+: told l.sender w.queued := by
  have hplace := (h.place_of_hand hhand).1
  have hbegun := h.begun_from l.sender
  rw [hplace, hhand] at hbegun
  refine ⟨told l.sender (w.pool.waiting (place l.sender)), ?_⟩
  unfold told
  rw [h.queued_from, hbegun, hplace, List.map_append, List.map_append]
  simp [heardFrom]

theorem told_handled (h : w.Sound place) (a : Address) : told a w.handled <+: told a w.queued := by
  rw [told, told, h.queued_from, h.begun_from, List.append_assoc, List.map_append]
  exact List.prefix_append _ _

end Sound

end Workshop

/-- A worker before it is started: what it computes, and the lanes of its pool. -/
structure Post (σ : Type) where
  computation : Computation σ
  state : σ
  laneOf : Address → Nat
  lanes : Nat

/-- A coordinator and its workers. What the lanes of their pools do is told by the steps below. -/
structure Plant (γ σ : Type) where
  coordinator : Coordinator γ
  /-- The lanes of the coordinator. -/
  desk : Workshop Unit
  /-- What a lane of the coordinator works out an answer from, and when it does. -/
  drafts : Nat → Option (Coordinator γ × Nat)
  /-- How workers that registered were answered. -/
  answers : Address → List (Option γ)
  crews : Address → Crew σ
  /-- The lanes of a worker. -/
  benches : Address → Workshop Unit
  /-- The messages that are under way to the coordinator, the oldest first. -/
  up : Address → List Message
  /-- The messages that are under way to a worker, the oldest first. -/
  down : Address → List Message

namespace Plant

open Function (update)

variable {γ σ : Type}

/-- Lanes that have nothing to do. -/
def newLanes (laneOf : Address → Nat) (lanes : Nat) : Workshop Unit :=
  .start (fun _ _ => ((), .ok)) laneOf () lanes

/-- Before anything happens. -/
def start (config : GridConfig) (source : JobSource γ) (g : γ) (laneOf : Address → Nat)
    (lanes : Nat) (posts : Address → Post σ) : Plant γ σ where
  coordinator := .new config source g
  desk := newLanes laneOf lanes
  drafts _ := none
  answers _ := []
  crews a := .new (posts a).computation (posts a).state
  benches a := newLanes (posts a).laneOf (posts a).lanes
  up _ := []
  down _ := []

/-- Everything that can happen next. To its workers the coordinator is known by the address `home`.
-/
inductive Step (home : Address) (w : Plant γ σ) : Plant γ σ → Prop
  | next (now : Nat) : Step home w { w with coordinator := w.coordinator.perform (.next now) }
  | requeue (now : Nat) : Step home w { w with coordinator := w.coordinator.perform (.requeue now) }
  /-- A message of a worker arrives. -/
  | arrive {a : Address} {m : Message} {rest : List Message} (arrived : w.up a = m :: rest)
      (taking : w.desk.pool.accepting = true) :
      Step home w { w with up := update w.up a rest, desk := w.desk.bring ⟨a, m⟩ }
  /-- A lane of the coordinator begins with a message. -/
  | begin (lane : Nat) {l : Letter} {rest : List Letter}
      (waiting : w.desk.pool.waiting lane = l :: rest) (idle : w.desk.hands lane = none) :
      Step home w { w with desk := w.desk.begin lane l rest }
  /-- It works out the answer, -/
  | prepare (lane : Nat) {l : Letter} (site : Site) (now : Nat)
      (hand : w.desk.hands lane = some l) (fresh : w.drafts lane = none) :
      Step home w { w with
        coordinator := w.coordinator.perform (.message site now l.sender l.message)
        drafts := update w.drafts lane (some (w.coordinator, now)) }
  /-- and sends it. -/
  | answer (lane : Nat) {l : Letter} {c : Coordinator γ} {now : Nat} (site : Site)
      (hand : w.desk.hands lane = some l) (draft : w.drafts lane = some (c, now)) :
      Step home w { w with
        desk := w.desk.finish lane l
        drafts := update w.drafts lane none
        answers := update w.answers l.sender
          (w.answers l.sender ++ c.welcomes site now l.sender l.message)
        down := update w.down l.sender
          (w.down l.sender ++ c.replies site now l.sender l.message) }
  /-- The coordinator takes no more messages. -/
  | close : Step home w { w with desk := { w.desk with pool := w.desk.pool.close } }
  /-- A message for a worker arrives. -/
  | deliver {a : Address} {m : Message} {rest : List Message} (arrived : w.down a = m :: rest)
      (taking : (w.benches a).pool.accepting = true) :
      Step home w { w with
        down := update w.down a rest
        benches := update w.benches a ((w.benches a).bring ⟨home, m⟩) }
  /-- A lane of a worker begins with a message, -/
  | pick {a : Address} (lane : Nat) {l : Letter} {rest : List Letter}
      (waiting : (w.benches a).pool.waiting lane = l :: rest)
      (idle : (w.benches a).hands lane = none) :
      Step home w { w with benches := update w.benches a ((w.benches a).begin lane l rest) }
  /-- and is through with it. -/
  | handle {a : Address} (lane : Nat) {l : Letter} (site : Site) (now : Nat)
      (hand : (w.benches a).hands lane = some l) :
      Step home w { w with
        benches := update w.benches a ((w.benches a).finish lane l)
        crews := update w.crews a
          { w.crews a with worker := ((w.crews a).worker.handle site now l.message).1 } }
  /-- A worker takes no more messages. -/
  | leave (a : Address) :
      Step home w { w with
        benches := update w.benches a { w.benches a with pool := (w.benches a).pool.close } }
  /-- A thread of a worker does something. -/
  | act {a : Address} {ms : List Message} {c : Crew σ} (acts : (w.crews a).Acts ms c) :
      Step home w { w with crews := update w.crews a c, up := update w.up a (w.up a ++ ms) }
  /-- Both ends of a connection send messages that are not about jobs. -/
  | chat (a : Address) {ups downs : List Message} (hup : ∀ m ∈ ups, m.kind ≠ .grid)
      (hdown : ∀ m ∈ downs, m.kind ≠ .grid) :
      Step home w { w with
        up := update w.up a (w.up a ++ ups)
        down := update w.down a (w.down a ++ downs) }

/-- Any number of steps. -/
abbrev Run (home : Address) : Plant γ σ → Plant γ σ → Prop :=
  Relation.ReflTransGen (Step home)

/-- A message that arrives while its lane has nothing to do, and that nobody comes between, is
handled as `Coordinator.handle` does it, and what is sent is all that it sends. -/
theorem run_handled {home : Address} {w : Plant γ σ} {place : Address → Nat}
    (hdesk : w.desk.Sound place) {a : Address} {m : Message} {rest : List Message}
    (arrived : w.up a = m :: rest) (taking : w.desk.pool.accepting = true)
    (empty : w.desk.pool.waiting (place a) = []) (idle : w.desk.hands (place a) = none)
    (fresh : w.drafts (place a) = none) (site : Site) (now : Nat) :
    ∃ w' ms, Run home w w' ∧
      w'.coordinator = (w.coordinator.handle site now a m).coordinator ∧
      w'.up = update w.up a rest ∧ w'.down = update w.down a (w.down a ++ ms) ∧
      w'.answers = update w.answers a (w.answers a ++ w.coordinator.welcomes site now a m) ∧
      w'.drafts = w.drafts ∧ w'.crews = w.crews ∧ w'.benches = w.benches ∧
      ms.foldlM (fun net r => net.send a r) site.net =
        .ok (w.coordinator.handle site now a m).site.net := by
  have hlane : w.desk.pool.laneFor a = place a := hdesk.placed a
  have hwaiting : (w.desk.bring ⟨a, m⟩).pool.waiting (place a) = [⟨a, m⟩] := by
    show (w.desk.pool.process ⟨a, m⟩).waiting (place a) = _
    rw [Pool.waiting_process taking (hlane ▸ hdesk.exists_lane a), empty, if_pos hlane,
      List.nil_append]
  have run : Run home w _ := .single (.arrive arrived taking)
  have run := run.tail (.begin (place a) hwaiting idle)
  have run := run.tail (.prepare (place a) site now (Function.update_self ..) fresh)
  have run := run.tail
    (.answer (place a) site (Function.update_self ..) (Function.update_self ..))
  refine ⟨_, w.coordinator.replies site now a m, run, rfl, rfl, rfl, rfl, ?_, rfl, rfl,
    w.coordinator.foldlM_replies site now a m⟩
  show update (update w.drafts (place a) _) (place a) none = w.drafts
  rw [Function.update_idem, ← fresh, Function.update_eq_self]

/-- All that concerns one worker. -/
def berth (home : Address) (w : Plant γ σ) (a : Address) : Berth γ σ where
  crew := w.crews a
  ups := Workshop.told a w.desk.queued ++ w.up a
  heard := Workshop.told a w.desk.handled
  answers := w.answers a
  downs := Workshop.told home (w.benches a).queued ++ w.down a
  handled := Workshop.told home (w.benches a).handled

/-- What holds all the time. -/
structure Sound (source : JobSource γ) (home : Address) (posts : Address → Post σ)
    (w : Plant γ σ) : Prop where
  desk : ∃ place, w.desk.Sound place
  benches : ∀ a, ∃ place, (w.benches a).Sound place
  same : w.coordinator.source = source
  drafts : ∀ lane c now, w.drafts lane = some (c, now) → c.source = source
  sender : ∀ a, ∀ l ∈ (w.benches a).queued, l.sender = home
  led : ∀ a, (w.berth home a).Led source (posts a).computation (posts a).state

variable {source : JobSource γ} {home : Address} {posts : Address → Post σ} {w w' : Plant γ σ}

theorem moves_of_eq {a : Address} (h : w'.berth home a = w.berth home a) :
    Berth.Moves source (w.berth home a) (w'.berth home a) := by
  rw [h]
  exact .stay

/-- What a step is for one worker. -/
theorem Sound.berth_moves (h : w.Sound source home posts) (hstep : Step home w w') (a : Address) :
    Berth.Moves source (w.berth home a) (w'.berth home a) := by
  cases hstep with
  | next now => exact .stay
  | requeue now => exact .stay
  | @arrive x m rest arrived taking =>
    -- the message was under way, and is queued now
    refine moves_of_eq ?_
    by_cases ha : a = x
    · subst ha
      simp [berth, Workshop.queued_bring taking, Workshop.told_append, Workshop.told_self ⟨a, m⟩,
        arrived]
    · simp [berth, Workshop.queued_bring taking, Workshop.told_append,
        Workshop.told_of_ne (l := ⟨x, m⟩) ha, ha]
  | begin lane waiting idle => exact .stay
  | prepare lane site now hand fresh => exact .stay
  | @answer lane l c now site hand draft =>
    by_cases ha : a = l.sender
    · subst ha
      obtain ⟨place, hdesk⟩ := h.desk
      have next := (hdesk.told_of_hand hand).trans (List.prefix_append _ (w.up l.sender))
      have hears := Berth.Moves.hear (b := w.berth home l.sender) site now l.sender
        (h.drafts _ _ _ draft) next
      simpa [berth, Workshop.told_append, Workshop.told_self] using hears
    · refine moves_of_eq ?_
      simp [berth, Workshop.told_append, Workshop.told_of_ne ha, ha]
  | close => exact .stay
  | @deliver x m rest arrived taking =>
    refine moves_of_eq ?_
    by_cases ha : a = x
    · subst ha
      simp [berth, Workshop.queued_bring taking, Workshop.told_append,
        Workshop.told_self ⟨home, m⟩, arrived]
    · simp [berth, ha]
  | @pick x lane l rest waiting idle =>
    refine moves_of_eq ?_
    by_cases ha : a = x
    · subst ha
      simp [berth]
    · simp [berth, ha]
  | @handle x lane l site now hand =>
    by_cases ha : a = x
    · subst ha
      obtain ⟨place, hbench⟩ := h.benches a
      obtain rfl : l.sender = home := h.sender a l (hbench.place_of_hand hand).2
      have next := (hbench.told_of_hand hand).trans (List.prefix_append _ (w.down a))
      have handles : Berth.Moves source (w.berth l.sender a) _ := .handle site now next
      simpa [berth, Workshop.told_append, Workshop.told_self] using handles
    · refine moves_of_eq ?_
      simp [berth, ha]
  | leave x =>
    refine moves_of_eq ?_
    by_cases ha : a = x
    · subst ha
      simp [berth, Workshop.handled]
    · simp [berth, ha]
  | @act x ms c acts =>
    by_cases ha : a = x
    · subst ha
      have sends : Berth.Moves source (w.berth home a) _ := .send acts
      simpa [berth] using sends
    · refine moves_of_eq ?_
      simp [berth, ha]
  | @chat x ups downs hup hdown =>
    by_cases ha : a = x
    · subst ha
      have chats : Berth.Moves source (w.berth home a) _ := .chat hup hdown
      simpa [berth] using chats
    · refine moves_of_eq ?_
      simp [berth, ha]

/-! ## What holds all the time -/

theorem sound_newLanes (laneOf : Address → Nat) (lanes : Nat) :
    ∃ place, (newLanes laneOf lanes).Sound place :=
  ⟨_, Workshop.sound_start _ laneOf () lanes⟩

theorem sound_start (config : GridConfig) (source : JobSource γ) (g : γ) (laneOf : Address → Nat)
    (lanes : Nat) (home : Address) (posts : Address → Post σ) :
    (start config source g laneOf lanes posts).Sound source home posts where
  desk := sound_newLanes laneOf lanes
  benches a := sound_newLanes (posts a).laneOf (posts a).lanes
  same := rfl
  drafts := nofun
  sender _ _ hl := nomatch hl
  led _ := Berth.led_new

/-- The lanes of the coordinator stay in order. -/
theorem Step.desk (h : Step home w w') : w'.desk = w.desk ∨ Workshop.Step w.desk w'.desk := by
  cases h with
  | @arrive a m rest arrived taking => exact .inr (.process w.desk ⟨a, m⟩)
  | begin lane waiting idle => exact .inr (.take _ waiting idle)
  | answer lane site hand draft => exact .inr (.settle _ hand)
  | close => exact .inr (.close w.desk)
  | _ => exact .inl rfl

/-- So do those of a worker. -/
theorem Step.bench (h : Step home w w') (a : Address) :
    w'.benches a = w.benches a ∨ Workshop.Step (w.benches a) (w'.benches a) := by
  have of_update : ∀ {x : Address} {bench : Workshop Unit}, Workshop.Step (w.benches x) bench →
      update w.benches x bench a = w.benches a ∨
        Workshop.Step (w.benches a) (update w.benches x bench a) := by
    intro x bench hbench
    by_cases ha : a = x
    · subst ha
      exact .inr (by rwa [Function.update_self])
    · exact .inl (Function.update_of_ne ha ..)
  cases h with
  | @deliver x m rest arrived taking => exact of_update (.process _ ⟨home, m⟩)
  | pick lane waiting idle => exact of_update (.take _ waiting idle)
  | handle lane site now hand => exact of_update (.settle _ hand)
  | leave x => exact of_update (.close _)
  | _ => exact .inl rfl

/-- What comes to a worker comes from the coordinator. -/
theorem Step.sender (h : Step home w w')
    (hsender : ∀ a, ∀ l ∈ (w.benches a).queued, l.sender = home) (a : Address) :
    ∀ l ∈ (w'.benches a).queued, l.sender = home := by
  have of_update : ∀ {x : Address} {bench : Workshop Unit}, (∀ l ∈ bench.queued, l.sender = home) →
      ∀ l ∈ (update w.benches x bench a).queued, l.sender = home := by
    intro x bench hbench
    by_cases ha : a = x
    · subst ha
      rwa [Function.update_self]
    · rw [Function.update_of_ne ha]
      exact hsender a
  cases h with
  | @deliver x m rest arrived taking =>
    refine of_update ?_
    intro l hl
    rw [Workshop.queued_bring taking] at hl
    rcases List.mem_append.mp hl with hl | hl
    · exact hsender x l hl
    · rw [List.mem_singleton.mp hl]
  | pick lane waiting idle => exact of_update (hsender _)
  | handle lane site now hand => exact of_update (hsender _)
  | leave x => exact of_update (hsender x)
  | _ => exact hsender a

/-- The jobs come from one source. -/
theorem Sound.sources (h : w.Sound source home posts) (hstep : Step home w w') :
    w'.coordinator.source = source ∧
      ∀ lane c now, w'.drafts lane = some (c, now) → c.source = source := by
  have hperform : ∀ call, (w.coordinator.perform call).source = source :=
    fun call => (w.coordinator.step_perform call).source_eq.trans h.same
  have hdrafts : ∀ {lane : Nat} {draft : Option (Coordinator γ × Nat)},
      (∀ c now, draft = some (c, now) → c.source = source) →
      ∀ other c now, update w.drafts lane draft other = some (c, now) → c.source = source := by
    intro lane draft hdraft
    exact (Function.forall_update_iff w.drafts fun _ d =>
      ∀ c now, d = some (c, now) → c.source = source).mpr ⟨hdraft, fun other _ => h.drafts other⟩
  cases hstep with
  | next now => exact ⟨hperform _, h.drafts⟩
  | requeue now => exact ⟨hperform _, h.drafts⟩
  | prepare lane site now hand fresh =>
    refine ⟨hperform _, hdrafts ?_⟩
    intro c time hdraft
    obtain ⟨rfl, -⟩ := Prod.mk.inj (Option.some.inj hdraft)
    exact h.same
  | answer lane site hand draft => exact ⟨h.same, hdrafts nofun⟩
  | _ => exact ⟨h.same, h.drafts⟩

theorem Sound.step (h : w.Sound source home posts) (hstep : Step home w w') :
    w'.Sound source home posts := by
  obtain ⟨hsame, hdrafts⟩ := h.sources hstep
  refine ⟨?_, ?_, hsame, hdrafts, hstep.sender h.sender,
    fun a => (h.led a).move (h.berth_moves hstep a)⟩
  · obtain ⟨place, hdesk⟩ := h.desk
    rcases hstep.desk with hstays | hmoves
    · exact ⟨place, hstays ▸ hdesk⟩
    · exact ⟨place, hdesk.step hmoves⟩
  · intro a
    obtain ⟨place, hbench⟩ := h.benches a
    rcases hstep.bench a with hstays | hmoves
    · exact ⟨place, hstays ▸ hbench⟩
    · exact ⟨place, hbench.step hmoves⟩

theorem Sound.run {w₀ : Plant γ σ} (h : w₀.Sound source home posts) (hrun : Run home w₀ w) :
    w.Sound source home posts := by
  induction hrun with
  | refl => exact h
  | tail _ hstep ih => exact ih.step hstep

theorem Sound.answers_isPrefix (h : w.Sound source home posts) (hrun : Run home w w')
    (a : Address) :
    w.answers a <+: w'.answers a := by
  induction hrun with
  | refl => exact List.prefix_rfl
  | tail hrun hstep ih => exact ih.trans ((h.run hrun).berth_moves hstep a).answers_isPrefix

/-- The data that a worker was given to compute with, by calls that are over. -/
def inits (home : Address) (w : Plant γ σ) (a : Address) : List Bytes :=
  (w.berth home a).inits

/-- If the first answer to a worker that registered is taken for sending at any time, then a thread
of that worker computes a job only after the worker was given the data that all jobs have in common,
as the generator made them for that answer. What it computes with comes of the data that it was
given, in their order. -/
theorem inits_before_jobs {config : GridConfig} {source : JobSource γ} {g₀ : γ}
    {laneOf : Address → Nat} {lanes : Nat} {home : Address} {posts : Address → Post σ}
    {w w' : Plant γ σ} (hrun : Run home (start config source g₀ laneOf lanes posts) w)
    (hlater : Run home w w') {a : Address} {g : γ}
    (hwelcome : (w'.answers a).head? = some (some g)) {i : Nat} {j : Job}
    (hcomputing : (w.crews a).places[i]? = some (.computing j)) :
    source.init g ∈ w.inits home a ∧
      (w.crews a).worker.state =
        (w.inits home a).foldl (fun s data => ((posts a).computation.setInit data s).1)
          (posts a).state := by
  have hsound := (sound_start config source g₀ laneOf lanes home posts).run hrun
  obtain ⟨place, hbench⟩ := hsound.benches a
  have horder := (hbench.told_handled home).trans (List.prefix_append _ (w.down a))
  have hled := hsound.led a
  have hworks : (w.crews a).Works := Crew.works_of_busy hcomputing rfl
  -- it was answered before, and answers are not taken back
  have hhead : (w.answers a).head? = some (some g) := by
    have hanswered : w.answers a ≠ [] := hled.answers_ne_nil horder hworks
    obtain ⟨more, hmore⟩ := hsound.answers_isPrefix hlater a
    rwa [← hmore, List.head?_append_of_ne_nil _ hanswered] at hwelcome
  exact ⟨hled.mem_inits horder hhead hworks, hled.given⟩

/-- A computation that keeps the last data it was given. -/
def keeping : Computation Bytes := ⟨fun data _ => (data, none), fun _ _ => .broke⟩

/-- A source of numbered jobs, which have something in common. -/
def numberedAlike : JobSource Nat := ⟨fun _ => [42], fun n => ([UInt8.ofNat n], n + 1)⟩

/-- The address of the coordinator in the run below. -/
def office : Address := .ipv4 10 8 8 8 8

def pair : Plant Nat Bytes :=
  start .default numberedAlike 0 (·.port.toNat) 2 fun _ => ⟨keeping, [], (·.port.toNat), 2⟩

/-- A worker registers, is greeted, asks for a job, and is about to compute it. -/
theorem exists_computing :
    ∃ (w : Plant Nat Bytes) (j : Job), Run office pair w ∧
      (w.answers (.ipv4 10 0 0 1 1)).head? = some (some 0) ∧
      (w.crews (.ipv4 10 0 0 1 1)).places[0]? = some (.computing j) := by
  let a : Address := .ipv4 10 0 0 1 1
  let job : Message := .grid (.ofData .compData 0 [0])
  have run : Run office pair _ := .single
    (.act (a := a) (.move (.initiate (show Worker.initiate _ Grid.guest 1 = _ from rfl))))
  have run := run.tail (.arrive (a := a) rfl rfl)
  have run := run.tail (.begin 1 rfl rfl)
  have run := run.tail (.prepare 1 Grid.host 0 rfl rfl)
  have run := run.tail (.answer 1 Grid.host rfl rfl)
  have run := run.tail (.deliver (a := a) (show _ = [numberedAlike.greeting 0] from rfl) rfl)
  have run := run.tail (.pick (a := a) 0
    (show _ = [(⟨office, numberedAlike.greeting 0⟩ : Letter)] by decide) rfl)
  have run := run.tail (.handle (a := a) 0 Grid.guest 0 rfl)
  have run := run.tail (.act (a := a) (.move (.enter (i := 0) rfl rfl rfl)))
  have run := run.tail (.act (a := a)
    (.ask (i := 0) rfl (show Worker.ask _ Grid.guest.net = _ from rfl)))
  have run := run.tail (.arrive (a := a) rfl rfl)
  have run := run.tail (.begin 1 rfl rfl)
  have run := run.tail (.prepare 1 Grid.host 0 rfl rfl)
  have run := run.tail (.answer 1 Grid.host rfl rfl)
  have run := run.tail (.deliver (a := a) (show _ = [job] from rfl) rfl)
  have run := run.tail (.pick (a := a) 0
    (show _ = [(⟨office, job⟩ : Letter)] by decide) rfl)
  have run := run.tail (.handle (a := a) 0 Grid.guest 0 rfl)
  have run := run.tail (.act (a := a) (.move (.take (i := 0) rfl rfl)))
  exact ⟨_, _, run, rfl, rfl⟩

/-- It was given what all jobs have in common. -/
theorem greeting_comes_first :
    ∃ (w : Plant Nat Bytes) (j : Job), Run office pair w ∧
      (w.answers (.ipv4 10 0 0 1 1)).head? = some (some 0) ∧
      (w.crews (.ipv4 10 0 0 1 1)).places[0]? = some (.computing j) ∧
      numberedAlike.init 0 ∈ w.inits office (.ipv4 10 0 0 1 1) ∧
      (w.crews (.ipv4 10 0 0 1 1)).worker.state =
        (w.inits office (.ipv4 10 0 0 1 1)).foldl
          (fun s data => (keeping.setInit data s).1) [] := by
  obtain ⟨w, j, run, hwelcome, hcomputing⟩ := exists_computing
  exact ⟨w, j, run, hwelcome, hcomputing, inits_before_jobs run .refl hwelcome hcomputing⟩

end Plant

end Parley
