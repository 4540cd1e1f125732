import Parley.Proofs.Grid.Results

/-!
# Init data before jobs, seen from one worker

A worker registers before any of its threads asks for a job. The coordinator hears what a worker
sends in its order and answers in that order, and the worker handles the answers in that order. So
the data that all jobs have in common, if they could be sent, are there before the first job.

* `Heralds` — in a list, something always comes after something else;
* `Crew.Acts` — what the threads of a worker do;
* `Crew.Acts.asks`, `Crew.Acts.registers`, `Crew.Acts.works` — when they ask for jobs, and have some;
* `Berth.Moves` — what can happen to one worker and to the messages from and for it;
* `Berth.Led.move` — all of that keeps init data before jobs;
* `Berth.Led.mem_inits` — a worker that has a job was given init data.
-/

namespace Parley

/-! ## Before and after in a list -/

/-- Wherever `q` holds of an element, `p` holds of an earlier one. -/
def Heralds {α : Type} (p q : α → Prop) (l : List α) : Prop :=
  ∀ front x back, l = front ++ x :: back → q x → ∃ y ∈ front, p y

namespace Heralds

variable {α : Type} {p q : α → Prop} {l : List α}

theorem of_forall (h : ∀ x ∈ l, ¬q x) : Heralds p q l := by
  rintro front x back rfl hx
  exact absurd hx (h x (by simp))

theorem of_isPrefix {l' : List α} (h : Heralds p q l) (hl : l' <+: l) : Heralds p q l' := by
  obtain ⟨rest, rfl⟩ := hl
  rintro front x back rfl hx
  exact h front x (back ++ rest) (by simp) hx

theorem exists_of_mem {x : α} (h : Heralds p q l) (hx : x ∈ l) (hq : q x) : ∃ y ∈ l, p y := by
  obtain ⟨front, back, rfl⟩ := List.append_of_mem hx
  obtain ⟨y, hy, hp⟩ := h front x back rfl hq
  exact ⟨y, List.mem_append_left _ hy, hp⟩

/-- The last of the elements so far is preceded by all others. -/
theorem exists_of_concat {x : α} (h : Heralds p q (l ++ [x])) (hq : q x) : ∃ y ∈ l, p y :=
  h l x [] rfl hq

theorem append {ms : List α} (h : Heralds p q l) (hms : ∀ x ∈ ms, q x → ∃ y ∈ l, p y) :
    Heralds p q (l ++ ms) := by
  intro front x back hsplit hx
  rcases List.append_eq_append_iff.mp hsplit with ⟨more, rfl, hmore⟩ | ⟨more, hfront, hmore⟩
  · obtain ⟨y, hy, hp⟩ := hms x (by simp [hmore]) hx
    exact ⟨y, List.mem_append_left _ hy, hp⟩
  · cases more with
    | nil =>
      rw [List.append_nil] at hfront
      have hmem : x ∈ ms := (show ms = x :: back from hmore.symm) ▸ List.mem_cons_self
      obtain ⟨y, hy, hp⟩ := hms x hmem hx
      exact ⟨y, hfront ▸ hy, hp⟩
    | cons first more =>
      obtain ⟨rfl, -⟩ := List.cons.inj hmore
      exact h front x more hfront hx

end Heralds

/-! ## What is said between a worker and its coordinator -/

/-- A message about jobs, of some kind. -/
def Message.IsGrid (k : GridKind) (m : Message) : Prop :=
  ∃ id data, m = .grid ⟨k, id, data⟩

theorem Message.isGrid_of_job? {m : Message} {now : Nat} {j : Job} (h : m.job? now = some j) :
    m.IsGrid .compData := by
  unfold job? at h
  split at h
  · exact ⟨_, _, rfl⟩
  · cases h

/-- What a worker that registers is told. -/
def JobSource.greeting {γ : Type} (s : JobSource γ) (g : γ) : Message :=
  .grid (.ofData .initData 0 (s.init g))

theorem JobSource.initData?_greeting {γ : Type} (s : JobSource γ) (g : γ) :
    (s.greeting g).initData? = some (s.init g) :=
  rfl

namespace Crew

variable {σ : Type} {c c' : Crew σ} {ms : List Message}

/-- Jobs have come for the threads. -/
def Works (c : Crew σ) : Prop :=
  c.worker.queue ≠ [] ∨ ∃ p ∈ c.places, p.phase = .busy

theorem works_of_busy {i : Nat} {p : Place} (h : c.places[i]? = some p) (hp : p.phase = .busy) :
    c.Works :=
  .inr ⟨p, List.mem_of_getElem? h, hp⟩

/-- A thread that goes to a place without a job brings none. -/
theorem Works.of_put {i : Nat} {p : Place} (h : (c.put i p).Works) (hp : p.phase ≠ .busy) :
    c.Works := by
  rcases h with hqueue | ⟨q, hq, hbusy⟩
  · exact .inl hqueue
  · rcases List.mem_or_eq_of_mem_set hq with hq | rfl
    · exact .inr ⟨q, hq, hbusy⟩
    · exact absurd hbusy hp

/-- Threads bring no jobs. -/
theorem Moves.works (hm : c.Moves ms c') (h : c'.Works) : c.Works := by
  cases hm with
  | enter ready alone running => exact h.of_put nofun
  | leave ready stopped => exact h.of_put nofun
  | ask entered asked => exact h.of_put nofun
  | @rest i net e entered failed => exact h.of_put (by cases e <;> nofun)
  | wake resting => exact h.of_put nofun
  | take asked taken =>
    obtain ⟨rest, hqueue, -⟩ := Worker.take_eq_job taken
    exact .inl (by simp [hqueue])
  | stopped asked stopped => exact h.of_put nofun
  | compute computing => exact works_of_busy computing rfl
  | report net reporting => exact works_of_busy reporting rfl
  | initiate registered =>
    unfold Worker.initiate at registered
    split at registered
    · cases registered
    · cases registered
      rcases h with hqueue | ⟨p, hp, hbusy⟩
      · exact .inl hqueue
      · rcases List.mem_append.mp hp with hp | hp
        · exact .inr ⟨p, hp, hbusy⟩
        · rw [List.eq_of_mem_replicate hp] at hbusy
          cases hbusy
  | stop => exact h
  | unregister net stopped => exact h

/-- Threads leave the data to compute with as they are. -/
theorem Moves.state_eq (hm : c.Moves ms c') :
    c'.worker.computation = c.worker.computation ∧ c'.worker.state = c.worker.state := by
  cases hm with
  | take asked taken =>
    obtain ⟨rest, -, rfl⟩ := Worker.take_eq_job taken
    exact ⟨rfl, rfl⟩
  | initiate registered =>
    unfold Worker.initiate at registered
    split at registered
    · cases registered
    · cases registered
      exact ⟨rfl, rfl⟩
  | _ => exact ⟨rfl, rfl⟩

/-- There are threads only after the worker has registered. -/
theorem Moves.registers (hm : c.Moves ms c') (h : c'.places ≠ []) :
    c.places ≠ [] ∨ ∃ m ∈ ms, m.IsGrid .register := by
  have of_put : ∀ {i : Nat} {p : Place}, (c.put i p).places ≠ [] → c.places ≠ [] := by
    intro i p hput hnil
    exact hput (by simp [put, hnil])
  cases hm with
  | initiate registered => exact .inr ⟨_, List.mem_singleton_self _, 0, none, rfl⟩
  | stop => exact .inl h
  | unregister net stopped => exact .inl h
  | take asked taken =>
    refine .inl ?_
    intro hnil
    simp [hnil] at asked
  | _ => exact .inl (of_put h)

/-- Only threads ask for jobs. -/
theorem Moves.asks (hm : c.Moves ms c') {m : Message} (hmem : m ∈ ms) (hnew : m.IsGrid .newData) :
    c.places ≠ [] := by
  obtain ⟨id, data, rfl⟩ := hnew
  cases hm with
  | ask entered asked => exact List.ne_nil_of_mem (List.mem_of_getElem? entered)
  | report net reporting => exact List.ne_nil_of_mem (List.mem_of_getElem? reporting)
  | initiate registered => cases List.mem_singleton.mp hmem
  | unregister net stopped => cases GridMessage.mem_sent hmem
  | _ => cases hmem

/-- What can happen next in a worker, if a thread may be given a job between finding none and asking
for one: it asks as a worker does that has none. -/
inductive Acts (c : Crew σ) : List Message → Crew σ → Prop
  | move {ms : List Message} {c' : Crew σ} (moves : c.Moves ms c') : Acts c ms c'
  | ask {i : Nat} {net net' : Network} (entered : c.places[i]? = some .entered)
      (sent : Worker.ask { c.worker with queue := [] } net = .ok net') :
      Acts c [.grid (.new .newData)] (c.put i .asked)
  | rest {i : Nat} {net : Network} {e : Error} (entered : c.places[i]? = some .entered)
      (failed : Worker.ask { c.worker with queue := [] } net = .error e) :
      Acts c [] (c.put i (.afterError e))

theorem Acts.works (ha : c.Acts ms c') (h : c'.Works) : c.Works := by
  cases ha with
  | move moves => exact moves.works h
  | ask entered sent => exact h.of_put nofun
  | @rest i net e entered failed => exact h.of_put (by cases e <;> nofun)

theorem Acts.state_eq (ha : c.Acts ms c') :
    c'.worker.computation = c.worker.computation ∧ c'.worker.state = c.worker.state := by
  cases ha with
  | move moves => exact moves.state_eq
  | ask entered sent => exact ⟨rfl, rfl⟩
  | rest entered failed => exact ⟨rfl, rfl⟩

theorem Acts.registers (ha : c.Acts ms c') (h : c'.places ≠ []) :
    c.places ≠ [] ∨ ∃ m ∈ ms, m.IsGrid .register := by
  cases ha with
  | move moves => exact moves.registers h
  | ask entered sent => exact .inl (List.ne_nil_of_mem (List.mem_of_getElem? entered))
  | rest entered failed => exact .inl (List.ne_nil_of_mem (List.mem_of_getElem? entered))

theorem Acts.asks (ha : c.Acts ms c') {m : Message} (hmem : m ∈ ms) (hnew : m.IsGrid .newData) :
    c.places ≠ [] := by
  cases ha with
  | move moves => exact moves.asks hmem hnew
  | ask entered sent => exact List.ne_nil_of_mem (List.mem_of_getElem? entered)
  | rest entered failed => cases hmem

end Crew

namespace Coordinator

variable {γ : Type}

/-- How a worker that registers is answered: what the generator was then, unless the answer could
not be sent. -/
def welcomes (c : Coordinator γ) (site : Site) (now : Nat) (a : Address) : Message → List (Option γ)
  | .grid ⟨.register, id, data⟩ =>
    [(c.handle site now a (.grid ⟨.register, id, data⟩)).result.toOption.map fun _ => c.generator]
  | _ => []

/-- A worker that registers is greeted, unless that cannot be sent. -/
theorem replies_of_register (c : Coordinator γ) (site : Site) (now : Nat) (a : Address)
    {m : Message} (h : m.IsGrid .register) :
    (c.replies site now a m = [c.source.greeting c.generator] ∧
        c.welcomes site now a m = [some c.generator]) ∨
      (c.replies site now a m = [] ∧ c.welcomes site now a m = [none]) := by
  obtain ⟨id, data, rfl⟩ := h
  let greeting : GridMessage := .ofData .initData 0 (c.source.init c.generator)
  show (greeting.sent (site.net.send a (.grid greeting)) = _ ∧
    [(c.tell site a greeting).result.toOption.map _] = _) ∨
    (greeting.sent (site.net.send a (.grid greeting)) = _ ∧
      [(c.tell site a greeting).result.toOption.map _] = _)
  unfold tell
  cases site.net.send a (.grid greeting) with
  | ok net => exact .inl ⟨rfl, rfl⟩
  | error e => exact .inr ⟨rfl, rfl⟩

theorem welcomes_of_not_register (c : Coordinator γ) (site : Site) (now : Nat) (a : Address)
    {m : Message} (h : ¬m.IsGrid .register) : c.welcomes site now a m = [] := by
  unfold welcomes
  split
  · exact absurd ⟨_, _, rfl⟩ h
  · rfl

/-- A job is sent only to a worker that asks for one. -/
theorem newData_of_replies {c : Coordinator γ} {site : Site} {now : Nat} {a : Address}
    {m r : Message} (hr : r ∈ c.replies site now a m) (hjob : r.IsGrid .compData) :
    m.IsGrid .newData := by
  obtain ⟨id, data, rfl⟩ := hjob
  unfold replies at hr
  cases m with
  | grid m =>
    obtain ⟨kind, id', data'⟩ := m
    cases kind with
    | newData => exact ⟨id', data', rfl⟩
    | register => cases GridMessage.mem_sent hr
    | _ => cases hr
  | _ => cases hr

end Coordinator

/-! ## One worker -/

/-- A worker, and the messages from it and for it since it was new, the oldest first. -/
structure Berth (γ σ : Type) where
  crew : Crew σ
  /-- What the worker has sent. -/
  ups : List Message
  /-- What the coordinator has handled of that. -/
  heard : List Message
  /-- How the coordinator has answered when the worker registered. -/
  answers : List (Option γ)
  /-- What the coordinator has sent to the worker. -/
  downs : List Message
  /-- What the worker has handled of that. -/
  handled : List Message

namespace Berth

variable {γ σ : Type}

/-- The data to compute with that the worker was given. -/
def inits (b : Berth γ σ) : List Bytes :=
  b.handled.filterMap Message.initData?

/-- What can happen to a worker. The coordinator handles what it sends one after the other, and the
worker what is sent to it. -/
inductive Moves (source : JobSource γ) (b : Berth γ σ) : Berth γ σ → Prop
  | stay : Moves source b b
  | send {c : Crew σ} {ms : List Message} (acts : b.crew.Acts ms c) :
      Moves source b { b with crew := c, ups := b.ups ++ ms }
  | hear {m : Message} {c : Coordinator γ} (site : Site) (now : Nat) (a : Address)
      (same : c.source = source) (next : b.heard ++ [m] <+: b.ups) :
      Moves source b { b with
        heard := b.heard ++ [m]
        answers := b.answers ++ c.welcomes site now a m
        downs := b.downs ++ c.replies site now a m }
  | handle {m : Message} (site : Site) (now : Nat) (next : b.handled ++ [m] <+: b.downs) :
      Moves source b { b with
        crew := { b.crew with worker := (b.crew.worker.handle site now m).1 }
        handled := b.handled ++ [m] }
  /-- Both sides send messages that are not about jobs. -/
  | chat {ups downs : List Message} (hup : ∀ m ∈ ups, m.kind ≠ .grid)
      (hdown : ∀ m ∈ downs, m.kind ≠ .grid) :
      Moves source b { b with ups := b.ups ++ ups, downs := b.downs ++ downs }

/-- Init data come before jobs. -/
structure Led (source : JobSource γ) (computation : Computation σ) (state : σ)
    (b : Berth γ σ) : Prop where
  /-- A worker registers before it asks for jobs. -/
  asks : Heralds (·.IsGrid .register) (·.IsGrid .newData) b.ups
  registered : b.crew.places ≠ [] → ∃ m ∈ b.ups, m.IsGrid .register
  /-- It is answered to that before it is sent a job. -/
  answered : ∀ m ∈ b.heard, m.IsGrid .register → b.answers ≠ []
  unanswered : b.answers = [] → ∀ m ∈ b.downs, ¬m.IsGrid .compData
  welcomed : ∀ g, b.answers.head? = some (some g) →
    source.greeting g ∈ b.downs ∧
      Heralds (· = source.greeting g) (·.IsGrid .compData) b.downs
  /-- It has no job before it was sent one. -/
  jobs : b.crew.Works → ∃ m ∈ b.handled, m.IsGrid .compData
  computes : b.crew.worker.computation = computation
  given : b.crew.worker.state =
    b.inits.foldl (fun s data => (computation.setInit data s).1) state

variable {source : JobSource γ} {computation : Computation σ} {state : σ} {b b' : Berth γ σ}

theorem led_new : (⟨.new computation state, [], [], [], [], []⟩ : Berth γ σ).Led source computation
    state where
  asks := .of_forall nofun
  registered h := absurd rfl h
  answered := nofun
  unanswered _ := nofun
  welcomed := nofun
  jobs h := by
    rcases h with h | ⟨p, hp, -⟩
    · exact absurd rfl h
    · cases hp
  computes := rfl
  given := rfl

/-- Threads ask for jobs after the worker has registered. -/
theorem Led.send (h : b.Led source computation state) {c : Crew σ} {ms : List Message}
    (ha : b.crew.Acts ms c) :
    ({ b with crew := c, ups := b.ups ++ ms } : Berth γ σ).Led source computation state := by
  obtain ⟨hcomputation, hstate⟩ := ha.state_eq
  refine ⟨?_, ?_, h.answered, h.unanswered, h.welcomed, fun hworks => h.jobs (ha.works hworks),
    hcomputation.trans h.computes, hstate.trans h.given⟩
  · exact h.asks.append fun m hmem hnew => h.registered (ha.asks hmem hnew)
  · intro hplaces
    rcases ha.registers hplaces with hplaces | ⟨m, hmem, hregister⟩
    · obtain ⟨m, hmem, hregister⟩ := h.registered hplaces
      exact ⟨m, List.mem_append_left _ hmem, hregister⟩
    · exact ⟨m, List.mem_append_right _ hmem, hregister⟩

/-- The worker is greeted, if it is, before it is sent a job. -/
theorem Led.hear_register (h : b.Led source computation state) {m : Message} {c : Coordinator γ}
    (site : Site) (now : Nat) (a : Address) (same : c.source = source) (hm : m.IsGrid .register) :
    ({ b with
      heard := b.heard ++ [m]
      answers := b.answers ++ c.welcomes site now a m
      downs := b.downs ++ c.replies site now a m } : Berth γ σ).Led source computation state := by
  have hnever : ∀ r ∈ c.replies site now a m, ¬r.IsGrid .compData := by
    intro r hr hjob
    obtain ⟨id, data, rfl⟩ := hm
    obtain ⟨_, _, heq⟩ := Coordinator.newData_of_replies hr hjob
    cases heq
  have hanswers : b.answers ++ c.welcomes site now a m ≠ [] := by
    rcases c.replies_of_register site now a hm with ⟨-, hwelcomes⟩ | ⟨-, hwelcomes⟩ <;>
      simp [hwelcomes]
  refine ⟨h.asks, h.registered, fun _ _ _ => hanswers, fun hnone => absurd hnone hanswers, ?_,
    h.jobs, h.computes, h.given⟩
  intro g hg
  by_cases hfirst : b.answers = []
  · have hgreeted : c.replies site now a m = [source.greeting g] := by
      rcases c.replies_of_register site now a hm with ⟨hreplies, hwelcomes⟩ | ⟨-, hwelcomes⟩
      · simp only [hfirst, hwelcomes, List.nil_append, List.head?_cons, Option.some.injEq] at hg
        rw [hreplies, same, hg]
      · simp [hfirst, hwelcomes] at hg
    refine ⟨by simp [hgreeted], .of_forall ?_⟩
    intro r hr
    rcases List.mem_append.mp hr with hr | hr
    · exact h.unanswered hfirst r hr
    · exact hnever r hr
  · have hhead : b.answers.head? = some (some g) := by
      rwa [List.head?_append_of_ne_nil _ hfirst] at hg
    obtain ⟨hgreeted, hheralds⟩ := h.welcomed g hhead
    exact ⟨List.mem_append_left _ hgreeted,
      hheralds.append fun r hr hjob => absurd hjob (hnever r hr)⟩

/-- Whatever else it sends, it is answered with a job only after it has registered. -/
theorem Led.hear_other (h : b.Led source computation state) {m : Message} {c : Coordinator γ}
    (site : Site) (now : Nat) (a : Address) (next : b.heard ++ [m] <+: b.ups)
    (hm : ¬m.IsGrid .register) :
    ({ b with
      heard := b.heard ++ [m]
      answers := b.answers ++ c.welcomes site now a m
      downs := b.downs ++ c.replies site now a m } : Berth γ σ).Led source computation state := by
  rw [c.welcomes_of_not_register site now a hm, List.append_nil]
  have hanswers : m.IsGrid .newData → b.answers ≠ [] := by
    intro hnew
    obtain ⟨first, hfirst, hregister⟩ := (h.asks.of_isPrefix next).exists_of_concat hnew
    exact h.answered first hfirst hregister
  refine ⟨h.asks, h.registered, ?_, ?_, ?_, h.jobs, h.computes, h.given⟩
  · intro other hother hregister
    rcases List.mem_append.mp hother with hother | hother
    · exact h.answered other hother hregister
    · rw [List.mem_singleton.mp hother] at hregister
      exact absurd hregister hm
  · intro hnone r hr hjob
    rcases List.mem_append.mp hr with hr | hr
    · exact h.unanswered hnone r hr hjob
    · exact hanswers (Coordinator.newData_of_replies hr hjob) hnone
  · intro g hg
    obtain ⟨hgreeted, hheralds⟩ := h.welcomed g hg
    exact ⟨List.mem_append_left _ hgreeted, hheralds.append fun _ _ _ => ⟨_, hgreeted, rfl⟩⟩

/-- The worker gets a job, or data to compute with. -/
theorem Led.handle (h : b.Led source computation state) {m : Message} (site : Site) (now : Nat) :
    ({ b with
      crew := { b.crew with worker := (b.crew.worker.handle site now m).1 }
      handled := b.handled ++ [m] } : Berth γ σ).Led source computation state := by
  rw [Worker.handle_fst]
  refine ⟨h.asks, h.registered, h.answered, h.unanswered, h.welcomed, ?_, h.computes, ?_⟩
  · intro hworks
    cases hjob : m.job? now with
    | none =>
      rw [hjob] at hworks
      obtain ⟨other, hother, hdata⟩ : ∃ m ∈ b.handled, m.IsGrid .compData := by
        refine h.jobs ?_
        rcases hworks with hqueue | hbusy
        · exact .inl (by simpa using hqueue)
        · exact .inr hbusy
      exact ⟨other, List.mem_append_left _ hother, hdata⟩
    | some j => exact ⟨m, List.mem_append_right _ List.mem_cons_self, Message.isGrid_of_job? hjob⟩
  · have hlast : [m].filterMap Message.initData? = m.initData?.toList := by
      cases hdata : m.initData? <;> simp [hdata]
    show (m.initData?.toList).foldl _ b.crew.worker.state = _
    rw [h.given, h.computes, inits, inits, List.filterMap_append, List.foldl_append, hlast]

theorem Led.chat (h : b.Led source computation state) {ups downs : List Message}
    (hup : ∀ m ∈ ups, m.kind ≠ .grid) (hdown : ∀ m ∈ downs, m.kind ≠ .grid) :
    ({ b with ups := b.ups ++ ups, downs := b.downs ++ downs } : Berth γ σ).Led source computation
      state := by
  have hidle : ∀ {ms : List Message}, (∀ m ∈ ms, m.kind ≠ .grid) →
      ∀ {k : GridKind}, ∀ m ∈ ms, ¬m.IsGrid k := by
    rintro ms hms k m hm ⟨id, data, rfl⟩
    exact hms _ hm rfl
  refine ⟨h.asks.append fun m hm hnew => absurd hnew (hidle hup m hm), ?_, h.answered, ?_, ?_,
    h.jobs, h.computes, h.given⟩
  · intro hplaces
    obtain ⟨m, hm, hregister⟩ := h.registered hplaces
    exact ⟨m, List.mem_append_left _ hm, hregister⟩
  · intro hnone m hm
    rcases List.mem_append.mp hm with hm | hm
    · exact h.unanswered hnone m hm
    · exact hidle hdown m hm
  · intro g hg
    obtain ⟨hgreeted, hheralds⟩ := h.welcomed g hg
    exact ⟨List.mem_append_left _ hgreeted,
      hheralds.append fun m hm hjob => absurd hjob (hidle hdown m hm)⟩

/-- Whatever happens to a worker keeps init data before jobs. -/
theorem Led.move (h : b.Led source computation state) (hm : Moves source b b') :
    b'.Led source computation state := by
  cases hm with
  | stay => exact h
  | send acts => exact h.send acts
  | @hear m c site now a same next =>
    by_cases hregister : m.IsGrid .register
    · exact h.hear_register site now a same hregister
    · exact h.hear_other site now a next hregister
  | handle site now next => exact h.handle site now
  | chat hup hdown => exact h.chat hup hdown

/-- Answers are not taken back. -/
theorem Moves.answers_isPrefix (hm : Moves source b b') : b.answers <+: b'.answers := by
  cases hm with
  | hear site now a same next => exact List.prefix_append _ _
  | _ => exact List.prefix_rfl

/-- A worker that has a job was answered when it registered. -/
theorem Led.answers_ne_nil (h : b.Led source computation state) (horder : b.handled <+: b.downs)
    (hworks : b.crew.Works) : b.answers ≠ [] := by
  intro hnone
  obtain ⟨m, hm, hjob⟩ := h.jobs hworks
  exact h.unanswered hnone m (horder.subset hm) hjob

/-- A worker that has a job was given init data, if they could be sent. -/
theorem Led.mem_inits (h : b.Led source computation state) (horder : b.handled <+: b.downs)
    {g : γ} (hg : b.answers.head? = some (some g)) (hworks : b.crew.Works) :
    source.init g ∈ b.inits := by
  obtain ⟨m, hm, hjob⟩ := h.jobs hworks
  obtain ⟨greeting, hgreeting, rfl⟩ :=
    ((h.welcomed g hg).2.of_isPrefix horder).exists_of_mem hm hjob
  exact List.mem_filterMap.mpr ⟨_, hgreeting, source.initData?_greeting g⟩

end Berth

end Parley
