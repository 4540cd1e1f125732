import Mathlib.Data.List.Forall2
import Mathlib.Data.List.Induction
import Mathlib.Data.List.Nodup
import Parley.Proofs.Wire.Encoding
import Parley.Sync

/-!
# After a full sync the peers agree

A node tells the state of all its objects. A peer that handles what was told, in any order and any
number of times, ends up with the same states, and nothing else of it changes. Telling takes the
table of the teller only as an argument, so nothing of the teller changes but its network.

- `SyncTable.Tidy`: the ids of the registrations are distinct, and each leads to an object with its
  id. An empty table is tidy, and `Tidy.add` keeps it so.
- `SyncBehaviour.Tells`, `SyncBehaviour.Takes`: how objects tell their state, and take one over.
- `SyncTable.sync_eq`: one message goes out for each object that tells its state, as far as the
  network takes it.
- `SyncTable.Caught`: how far a peer has come with some of the messages. `Caught.handle` is a step,
  `exists_caught` any number of them.
- `SyncTable.peers_agree`: the states at the peer do not depend on the order.
- `Holder`: objects that hold a value and tell it in one of the formats.
-/

namespace Parley

variable {σ ρ τ : Type}

namespace Network

/-- The message, if there is one and the network takes it for all its connections. -/
def taken? (net : Network) : Except Error SyncMessage → Option SyncMessage
  | .ok m => if (net.broadcast (.sync m)).isOk then some m else none
  | .error _ => none

theorem broadcast_isOk (net : Network) (queue : List Command) (m : Message) :
    (({ net with queue := queue } : Network).broadcast m).isOk = (net.broadcast m).isOk := by
  simp only [broadcast, command]
  cases net.running with
  | false => rfl
  | true =>
    cases encode net.config m with
    | error e => rfl
    | ok bytes => cases net.listening <;> rfl

/-- What the network takes does not depend on the commands that wait already. -/
theorem taken?_withQueue (net : Network) (queue : List Command) (r : Except Error SyncMessage) :
    ({ net with queue := queue } : Network).taken? r = net.taken? r := by
  cases r with
  | error e => rfl
  | ok m => simp only [taken?, broadcast_isOk]

theorem taken?_ok {net : Network} {r : Except Error SyncMessage}
    {m : SyncMessage} (h : net.taken? r = some m) : r = .ok m := by
  cases r with
  | error e => cases h
  | ok m' =>
    simp only [taken?] at h
    split at h
    · rw [Option.some.inj h]
    · cases h

end Network

/-! ## Objects -/

namespace SyncBehaviour

/-- An object tells its id and its state, in the packed form of the state, or fails. -/
def Tells (a : SyncBehaviour σ) (state : σ → τ) (pack : τ → Bytes) : Prop :=
  ∀ o m, a.message o = .ok m → m = .sync (a.id o) (pack (state o))

/-- An object takes over the states that it admits, in their packed form. It stays the object that it
is: its id and the states that it admits are the same afterwards. -/
def Takes (b : SyncBehaviour ρ) (state : ρ → τ) (pack : τ → Bytes) (admits : ρ → τ → Prop) : Prop :=
  ∀ o s, admits o s → ∃ o', b.apply (.sync (b.id o) (pack s)) o = .ok o' ∧
    state o' = s ∧ b.id o' = b.id o ∧ admits o' = admits o

end SyncBehaviour

namespace SyncTable

/-! ## Registrations -/

/-- Every registration has an id of its own and leads to an object with it. -/
structure Tidy (b : SyncBehaviour σ) (t : SyncTable σ) : Prop where
  ids : (t.registered.map (·.1)).Nodup
  named : ∀ e ∈ t.registered, ∃ o, t.objects[e.2]? = some o ∧ b.id o = e.1

/-- The registered objects. -/
def shared (t : SyncTable σ) : List σ :=
  t.registered.filterMap fun e => t.objects[e.2]?

/-- The messages of all registered objects that go out. -/
def told (a : SyncBehaviour σ) (t : SyncTable σ) (net : Network) : List SyncMessage :=
  t.shared.filterMap fun o => net.taken? (a.message o)

variable {a : SyncBehaviour σ} {b : SyncBehaviour ρ} {t : SyncTable σ} {u : SyncTable ρ}

theorem tidy_empty (a : SyncBehaviour σ) : Tidy a empty :=
  ⟨List.nodup_nil, nofun⟩

theorem mem_of_place? {id : String} {place : Nat} (h : t.place? id = some place) :
    (id, place) ∈ t.registered := by
  obtain ⟨front, back, hsplit, -⟩ := List.lookup_eq_some_iff.mp h
  rw [hsplit]
  exact List.mem_append_right _ List.mem_cons_self

theorem contains_iff {id : String} : t.contains id = true ↔ id ∈ t.registered.map (·.1) := by
  rw [contains, Option.isSome_iff_ne_none, ne_eq, place?, List.lookup_eq_none_iff, List.mem_map]
  constructor
  · intro h
    by_contra hnone
    refine h fun e he => ?_
    rw [bne_iff_ne]
    rintro rfl
    exact hnone ⟨e, he, rfl⟩
  · rintro ⟨e, he, rfl⟩ hnone
    exact absurd (hnone e he) (by simp)

namespace Tidy

theorem place? (h : t.Tidy a) {e : String × Nat} (he : e ∈ t.registered) :
    t.place? e.1 = some e.2 := by
  have hcontains : t.contains e.1 = true := contains_iff.mpr (List.mem_map_of_mem he)
  obtain ⟨place, hplace⟩ := Option.isSome_iff_exists.mp hcontains
  have hsame : (e.1, place) = e := List.inj_on_of_nodup_map h.ids (mem_of_place? hplace) he rfl
  rw [hplace, ← hsame]

theorem eq_of_place (h : t.Tidy a) {e e' : String × Nat} (he : e ∈ t.registered)
    (he' : e' ∈ t.registered) (hplace : e.2 = e'.2) : e = e' := by
  obtain ⟨o, hget, hname⟩ := h.named e he
  obtain ⟨o', hget', hname'⟩ := h.named e' he'
  rw [hplace] at hget
  obtain rfl : o = o' := Option.some.inj (hget.symm.trans hget')
  exact List.inj_on_of_nodup_map h.ids he he' (hname.symm.trans hname')

theorem eq_of_id (h : t.Tidy a) {o o' : σ} (ho : o ∈ t.shared) (ho' : o' ∈ t.shared)
    (hid : a.id o = a.id o') : o = o' := by
  obtain ⟨e, he, hget⟩ := List.mem_filterMap.mp ho
  obtain ⟨e', he', hget'⟩ := List.mem_filterMap.mp ho'
  obtain ⟨x, hx, hname⟩ := h.named e he
  obtain ⟨x', hx', hname'⟩ := h.named e' he'
  obtain rfl : o = x := Option.some.inj (hget.symm.trans hx)
  obtain rfl : o' = x' := Option.some.inj (hget'.symm.trans hx')
  obtain rfl : e = e' :=
    List.inj_on_of_nodup_map h.ids he he' (hname.symm.trans (hid.trans hname'))
  exact Option.some.inj (hget.symm.trans hget')

theorem lt_length (h : t.Tidy a) {e : String × Nat} (he : e ∈ t.registered) :
    e.2 < t.objects.length := by
  obtain ⟨o, hget, -⟩ := h.named e he
  exact (List.getElem?_eq_some_iff.mp hget).1

theorem add (h : t.Tidy a) (object : σ) : (t.add a object).1.Tidy a := by
  have hold {e : String × Nat} (he : e ∈ t.registered) :
      (t.objects ++ [object])[e.2]? = t.objects[e.2]? :=
    List.getElem?_append_left (h.lt_length he)
  have hnew : (t.objects ++ [object])[t.objects.length]? = some object := by simp
  unfold SyncTable.add
  dsimp only
  by_cases hcontains : t.contains (a.id object) = true
  · -- the registration under the id leads to the new object now
    rw [if_pos hcontains]
    let move : String × Nat → String × Nat := fun e =>
      if e.1 == a.id object then (e.1, t.objects.length) else e
    have hmove (e : String × Nat) :
        move e = if e.1 = a.id object then (e.1, t.objects.length) else e := by
      by_cases hid : e.1 = a.id object <;> simp [move, hid]
    have hfirst (e : String × Nat) : (move e).1 = e.1 := by
      rw [hmove]
      split <;> rfl
    refine ⟨?_, ?_⟩
    · show ((t.registered.map move).map (·.1)).Nodup
      rw [List.map_map]
      exact (List.map_congr_left fun e _ => hfirst e) ▸ h.ids
    · intro e he
      obtain ⟨old, hold', rfl⟩ := List.mem_map.mp he
      show ∃ o, (t.objects ++ [object])[(move old).2]? = some o ∧ a.id o = (move old).1
      rw [hfirst, hmove]
      by_cases hid : old.1 = a.id object
      · rw [if_pos hid]
        exact ⟨object, hnew, hid.symm⟩
      · rw [if_neg hid, hold hold']
        exact h.named old hold'
  · rw [if_neg hcontains]
    have hfresh : a.id object ∉ t.registered.map (·.1) := fun hmem =>
      hcontains (contains_iff.mpr hmem)
    refine ⟨?_, ?_⟩
    · show ((t.registered ++ [(a.id object, t.objects.length)]).map (·.1)).Nodup
      rw [List.map_append]
      exact List.nodup_append'.mpr
        ⟨h.ids, List.nodup_singleton _, List.disjoint_singleton.mpr hfresh⟩
    · intro e he
      rcases List.mem_append.mp he with hmem | hmem
      · show ∃ o, (t.objects ++ [object])[e.2]? = some o ∧ _
        rw [hold hmem]
        exact h.named e hmem
      · rw [List.mem_singleton.mp hmem]
        exact ⟨object, hnew, rfl⟩

end Tidy

/-! ## What goes out -/

theorem tell_of_taken {site : Site} {entry : String × Except Error SyncMessage} {m : SyncMessage}
    (h : site.net.taken? entry.2 = some m) (synced : Nat) :
    ∃ bytes, Network.encode site.net.config (.sync m) = .ok bytes ∧
      tell (site, synced) entry =
        ({ site with net := { site.net with queue := site.net.queue ++ [.broadcast bytes] } },
          synced + 1) := by
  obtain ⟨id, r⟩ := entry
  cases r with
  | error e => cases h
  | ok m' =>
    simp only [Network.taken?] at h
    cases hnet : site.net.broadcast (.sync m') with
    | error e =>
      rw [hnet] at h
      cases h
    | ok net =>
      rw [hnet] at h
      obtain rfl : m' = m := Option.some.inj h
      obtain ⟨bytes, hencode, rfl⟩ := Network.broadcast_ok hnet
      exact ⟨bytes, hencode, by simp only [tell, bind, Except.bind, hnet]⟩

theorem tell_of_not_taken {site : Site} {entry : String × Except Error SyncMessage}
    (h : site.net.taken? entry.2 = none) (synced : Nat) :
    ∃ e, tell (site, synced) entry = (site.note (.objectNotSynced entry.1 e), synced) := by
  obtain ⟨id, r⟩ := entry
  cases r with
  | error e => exact ⟨e, rfl⟩
  | ok m =>
    cases hnet : site.net.broadcast (.sync m) with
    | error e =>
      exact ⟨e, by simp only [tell, bind, Except.bind, hnet]⟩
    | ok net =>
      simp only [Network.taken?, hnet] at h
      cases h

/-- The frames of the messages that are taken are queued in their order and counted. -/
theorem foldl_tell (entries : List (String × Except Error SyncMessage)) (site : Site)
    (synced : Nat) :
    ∃ frames, List.Forall₂ (fun m bytes => Network.encode site.net.config (.sync m) = .ok bytes)
        (entries.filterMap fun e => site.net.taken? e.2) frames ∧
      (entries.foldl tell (site, synced)).1.net =
        { site.net with queue := site.net.queue ++ frames.map .broadcast } ∧
      (entries.foldl tell (site, synced)).2 =
        synced + (entries.filterMap fun e => site.net.taken? e.2).length := by
  induction entries generalizing site synced with
  | nil => exact ⟨[], .nil, by simp, rfl⟩
  | cons entry rest ih =>
    rw [List.foldl_cons]
    cases htaken : site.net.taken? entry.2 with
    | none =>
      obtain ⟨e, htell⟩ := tell_of_not_taken htaken synced
      rw [htell, List.filterMap_cons, htaken]
      exact ih (site.note (.objectNotSynced entry.1 e)) synced
    | some m =>
      obtain ⟨bytes, hencode, htell⟩ := tell_of_taken htaken synced
      rw [htell, List.filterMap_cons, htaken]
      obtain ⟨frames, hframes, hnet, hsynced⟩ := ih
        { site with net := { site.net with queue := site.net.queue ++ [.broadcast bytes] } }
        (synced + 1)
      simp only [Network.taken?_withQueue] at hframes hsynced
      refine ⟨bytes :: frames, .cons hencode hframes, ?_, ?_⟩
      · rw [hnet]
        simp
      · rw [hsynced, List.length_cons]
        omega

theorem filterMap_messages (a : SyncBehaviour σ) (t : SyncTable σ) (net : Network) :
    ((t.messages a).filterMap fun e => net.taken? e.2) = t.told a net := by
  rw [messages, told, shared, List.filterMap_filterMap, List.filterMap_filterMap]
  exact List.filterMap_congr fun e _ => Option.bind_map

/-- One message goes out for each object that tells its state, as far as the network takes it. -/
theorem sync_eq (a : SyncBehaviour σ) (t : SyncTable σ) (site : Site) :
    ∃ frames, List.Forall₂ (fun m bytes => Network.encode site.net.config (.sync m) = .ok bytes)
        (t.told a site.net) frames ∧
      (t.sync a site).1.net =
        { site.net with queue := site.net.queue ++ frames.map .broadcast } ∧
      (t.sync a site).2 = (t.told a site.net).length := by
  obtain ⟨frames, hframes, hnet, hsynced⟩ := foldl_tell (t.messages a) site 0
  rw [filterMap_messages] at hframes hsynced
  exact ⟨frames, hframes, hnet, hsynced.trans (Nat.zero_add _)⟩

/-! ## What a peer takes over -/

/-- How far a peer has come from `u` to `u'`: its objects with the ids in `done` have the states that
the objects of `t` tell, and nothing else has changed. -/
structure Caught (a : SyncBehaviour σ) (t : SyncTable σ) (stateA : σ → τ) (b : SyncBehaviour ρ)
    (u : SyncTable ρ) (stateB : ρ → τ) (admits : ρ → τ → Prop) (done : List String)
    (u' : SyncTable ρ) : Prop where
  registered : u'.registered = u.registered
  elsewhere : ∀ place ∉ u.registered.map (·.2), u'.objects[place]? = u.objects[place]?
  objects : ∀ e ∈ u.registered, ∀ p, u.objects[e.2]? = some p →
    ∃ p', u'.objects[e.2]? = some p' ∧ b.id p' = b.id p ∧ admits p' = admits p ∧
      (e.1 ∉ done → p' = p) ∧ (e.1 ∈ done → ∀ o ∈ t.shared, a.id o = e.1 → stateB p' = stateA o)

namespace Caught

variable {stateA : σ → τ} {pack : τ → Bytes} {stateB : ρ → τ} {admits : ρ → τ → Prop}
variable {done : List String} {u' : SyncTable ρ}

theorem start : Caught a t stateA b u stateB admits [] u where
  registered := rfl
  elsewhere := fun _ _ => rfl
  objects := fun _ _ p hget => ⟨p, hget, rfl, rfl, fun _ => rfl, nofun⟩

/-- One message is handled. -/
theorem handle (htells : a.Tells stateA pack) (htakes : b.Takes stateB pack admits)
    (ht : t.Tidy a) (hu : u.Tidy b)
    (hadmits : ∀ o ∈ t.shared, ∀ p ∈ u.shared, a.id o = b.id p → admits p (stateA o))
    (h : Caught a t stateA b u stateB admits done u') {o : σ} (ho : o ∈ t.shared)
    {m : SyncMessage} (hm : a.message o = .ok m) :
    ∃ u'', u'.handle b (.sync m) = .ok u'' ∧
      Caught a t stateA b u stateB admits (a.id o :: done) u'' := by
  obtain rfl := htells o m hm
  have hplace : u'.place? (a.id o) = u.place? (a.id o) := by
    rw [SyncTable.place?, SyncTable.place?, h.registered]
  cases hget : u.place? (a.id o) with
  | none =>
    -- the peer does not know the object
    refine ⟨u', ?_, h.registered, h.elsewhere, ?_⟩
    · simp only [SyncTable.handle, SyncMessage.sync, hplace, hget]
    · intro e he p hp
      have hne : e.1 ≠ a.id o := by
        intro heq
        have := hu.place? he
        rw [heq, hget] at this
        cases this
      obtain ⟨p', hp', hid, hadm, hnot, hdone⟩ := h.objects e he p hp
      refine ⟨p', hp', hid, hadm, fun hmem => hnot fun hin => hmem (List.mem_cons_of_mem _ hin), ?_⟩
      intro hmem
      exact hdone ((List.mem_cons.mp hmem).resolve_left hne)
  | some place =>
    have he := mem_of_place? hget
    obtain ⟨p, hp, hname⟩ := hu.named _ he
    obtain ⟨p', hp', hid, hadm, -, -⟩ := h.objects _ he p hp
    have hshared : p ∈ u.shared := List.mem_filterMap.mpr ⟨_, he, hp⟩
    have hstate : admits p' (stateA o) := hadm ▸ hadmits o ho p hshared hname.symm
    obtain ⟨p'', happly, hstate'', hid'', hadm''⟩ := htakes p' (stateA o) hstate
    rw [hid, hname] at happly
    refine ⟨u'.modifyAt place fun _ => p'', ?_, h.registered, ?_, ?_⟩
    · rw [SyncMessage.sync] at happly ⊢
      simp only [SyncTable.handle, hplace, hget, hp', happly]
    · intro other hother
      have hne : place ≠ other := by
        rintro rfl
        exact hother (List.mem_map_of_mem he)
      show (u'.objects.modify place fun _ => p'')[other]? = _
      rw [List.getElem?_modify_ne _ _ hne]
      exact h.elsewhere other hother
    · intro e he' q hq
      by_cases hsame : e.1 = a.id o
      · -- the registration under the id
        obtain rfl : e = (a.id o, place) := List.inj_on_of_nodup_map hu.ids he' he hsame
        obtain rfl : p = q := Option.some.inj (hp.symm.trans hq)
        refine ⟨p'', ?_, hid''.trans hid, hadm''.trans hadm, ?_, ?_⟩
        · show (u'.objects.modify place fun _ => p'')[place]? = _
          simp [hp']
        · intro hnot
          exact absurd List.mem_cons_self hnot
        · intro _ o' ho' hid'
          rw [hstate'', ht.eq_of_id ho' ho hid']
      · have hne : place ≠ e.2 := by
          intro heq
          exact hsame (congrArg Prod.fst (hu.eq_of_place he' he heq.symm))
        obtain ⟨q', hq', hqid, hqadm, hnot, hdone⟩ := h.objects e he' q hq
        refine ⟨q', ?_, hqid, hqadm, fun hmem => hnot fun hin => hmem (List.mem_cons_of_mem _ hin),
          ?_⟩
        · show (u'.objects.modify place fun _ => p'')[e.2]? = _
          rw [List.getElem?_modify_ne _ _ hne]
          exact hq'
        · intro hmem
          exact hdone ((List.mem_cons.mp hmem).resolve_left hsame)

end Caught

/-- Any of the messages are handled, in any order. -/
theorem exists_caught {stateA : σ → τ} {pack : τ → Bytes} {stateB : ρ → τ} {admits : ρ → τ → Prop}
    (htells : a.Tells stateA pack) (htakes : b.Takes stateB pack admits)
    (ht : t.Tidy a) (hu : u.Tidy b)
    (hadmits : ∀ o ∈ t.shared, ∀ p ∈ u.shared, a.id o = b.id p → admits p (stateA o))
    (deliveries : List SyncMessage)
    (htold : ∀ m ∈ deliveries, ∃ o ∈ t.shared, a.message o = .ok m) :
    ∃ u', deliveries.foldlM (fun v m => v.handle b (.sync m)) u = .ok u' ∧
      ∃ done, (∀ id, id ∈ done ↔ ∃ m ∈ deliveries, m.id = id) ∧
        Caught a t stateA b u stateB admits done u' := by
  induction deliveries using List.reverseRecOn with
  | nil => exact ⟨u, rfl, [], by simp, Caught.start⟩
  | append_singleton front m ih =>
    obtain ⟨u', hfront, done, hdone, h⟩ := ih fun x hx => htold x (List.mem_append_left _ hx)
    obtain ⟨o, ho, hm⟩ := htold m (by simp)
    obtain ⟨u'', hhandle, h''⟩ := h.handle htells htakes ht hu hadmits ho hm
    have hid : m.id = a.id o := by rw [htells o m hm]; rfl
    refine ⟨u'', ?_, a.id o :: done, ?_, h''⟩
    · rw [List.foldlM_append, hfront]
      show [m].foldlM (fun v m => v.handle b (.sync m)) u' = _
      rw [List.foldlM_cons, hhandle]
      rfl
    · intro id
      rw [List.mem_cons, hdone]
      simp only [List.mem_append, List.mem_singleton, or_and_right, exists_or, exists_eq_left, hid]
      rw [or_comm, eq_comm]

/-- The ids that a peer has taken over decide about the states that its objects have. -/
theorem Caught.states_eq {stateA : σ → τ} {stateB : ρ → τ} {admits : ρ → τ → Prop}
    {done done' : List String} {u₁ u₂ : SyncTable ρ} (hu : u.Tidy b)
    (h₁ : Caught a t stateA b u stateB admits done u₁)
    (h₂ : Caught a t stateA b u stateB admits done' u₂)
    (hdone : ∀ id, id ∈ done ↔ id ∈ done') (hshared : ∀ id ∈ done, ∃ o ∈ t.shared, a.id o = id) :
    u₁.objects.map stateB = u₂.objects.map stateB := by
  refine List.ext_getElem? fun place => ?_
  rw [List.getElem?_map, List.getElem?_map]
  by_cases hplace : place ∈ u.registered.map (·.2)
  · obtain ⟨e, he, rfl⟩ := List.mem_map.mp hplace
    obtain ⟨p, hp, -⟩ := hu.named e he
    obtain ⟨p₁, hp₁, -, -, hnot₁, hdone₁⟩ := h₁.objects e he p hp
    obtain ⟨p₂, hp₂, -, -, hnot₂, hdone₂⟩ := h₂.objects e he p hp
    rw [hp₁, hp₂]
    by_cases hmem : e.1 ∈ done
    · obtain ⟨o, ho, hid⟩ := hshared e.1 hmem
      have hstate := hdone₁ hmem o ho hid
      rw [← hdone₂ ((hdone _).mp hmem) o ho hid] at hstate
      exact congrArg some hstate
    · rw [hnot₁ hmem, hnot₂ fun hmem' => hmem ((hdone _).mpr hmem')]
  · rw [h₁.elsewhere place hplace, h₂.elsewhere place hplace]

theorem mem_told {net : Network} {m : SyncMessage} :
    m ∈ t.told a net ↔ ∃ o ∈ t.shared, net.taken? (a.message o) = some m :=
  List.mem_filterMap

/-- A node tells one message for each object that tells its state as far as the network takes it,
counts them, and would tell the same again. A peer that handles them all, in any order and any of
them again and again, comes to the same states: an object that was told has the state of the object
that told it, all other objects and the registrations are as they were. -/
theorem peers_agree {stateA : σ → τ} {pack : τ → Bytes} {stateB : ρ → τ} {admits : ρ → τ → Prop}
    (htells : a.Tells stateA pack) (htakes : b.Takes stateB pack admits)
    (ht : t.Tidy a) (hu : u.Tidy b)
    (hadmits : ∀ o ∈ t.shared, ∀ p ∈ u.shared, a.id o = b.id p → admits p (stateA o))
    (site : Site) :
    (∃ frames,
      List.Forall₂ (fun m bytes => Network.encode site.net.config (.sync m) = .ok bytes)
        (t.told a site.net) frames ∧
      (t.sync a site).1.net =
        { site.net with queue := site.net.queue ++ frames.map .broadcast } ∧
      (t.sync a site).2 = (t.told a site.net).length) ∧
    t.told a (t.sync a site).1.net = t.told a site.net ∧
    ∃ final : List τ, ∀ deliveries : List SyncMessage,
      (∀ m, m ∈ deliveries ↔ m ∈ t.told a site.net) →
      ∃ u', deliveries.foldlM (fun v m => v.handle b (.sync m)) u = .ok u' ∧
        u'.registered = u.registered ∧
        u'.objects.map stateB = final ∧
        (∀ o ∈ t.shared, (site.net.taken? (a.message o)).isSome → ∀ p, u.get? (a.id o) = some p →
          ∃ p', u'.get? (a.id o) = some p' ∧ b.id p' = b.id p ∧ stateB p' = stateA o) ∧
        ∀ place, (∀ id, (id, place) ∈ u.registered → id ∉ (t.told a site.net).map (·.id)) →
          u'.objects[place]? = u.objects[place]? := by
  obtain ⟨frames, hframes, hnet, hsynced⟩ := sync_eq a t site
  refine ⟨⟨frames, hframes, hnet, hsynced⟩, ?_, ?_⟩
  · rw [hnet]
    simp only [told, Network.taken?_withQueue]
  have hsource {m : SyncMessage} (hm : m ∈ t.told a site.net) :
      ∃ o ∈ t.shared, a.message o = .ok m := by
    obtain ⟨o, ho, htaken⟩ := mem_told.mp hm
    exact ⟨o, ho, Network.taken?_ok htaken⟩
  -- the states after every message has come once are the ones after any other way
  obtain ⟨v, -, done, hdone, hv⟩ :=
    exists_caught htells htakes ht hu hadmits (t.told a site.net) fun _ => hsource
  refine ⟨v.objects.map stateB, fun deliveries hdeliveries => ?_⟩
  obtain ⟨u', hfold, done', hdone', hu'⟩ :=
    exists_caught htells htakes ht hu hadmits deliveries fun m hm => hsource ((hdeliveries m).mp hm)
  have hids (id : String) : id ∈ done' ↔ id ∈ (t.told a site.net).map (·.id) := by
    simp only [hdone', hdeliveries, List.mem_map]
  have hshared (id : String) (hid : id ∈ done') : ∃ o ∈ t.shared, a.id o = id := by
    obtain ⟨m, hm, rfl⟩ := List.mem_map.mp ((hids id).mp hid)
    obtain ⟨o, ho, hmessage⟩ := hsource hm
    exact ⟨o, ho, by rw [htells o m hmessage]; rfl⟩
  refine ⟨u', hfold, hu'.registered, ?_, ?_, ?_⟩
  · refine hu'.states_eq hu hv (fun id => ?_) hshared
    simp only [hdone', hdone, hdeliveries]
  · intro o ho htaken p hp
    obtain ⟨m, hm⟩ := Option.isSome_iff_exists.mp htaken
    have hid : a.id o ∈ done' := by
      refine (hids _).mpr (List.mem_map.mpr ⟨m, mem_told.mpr ⟨o, ho, hm⟩, ?_⟩)
      rw [htells o m (Network.taken?_ok hm)]
      rfl
    obtain ⟨place, hplace, hp⟩ := Option.bind_eq_some_iff.mp hp
    obtain ⟨p', hp', hsame, -, -, hstate⟩ := hu'.objects _ (mem_of_place? hplace) p hp
    refine ⟨p', ?_, hsame, hstate hid o ho rfl⟩
    rw [SyncTable.get?, SyncTable.place?, hu'.registered, ← SyncTable.place?, hplace]
    exact hp'
  · intro place hplace
    by_cases hmem : place ∈ u.registered.map (·.2)
    · obtain ⟨e, he, rfl⟩ := List.mem_map.mp hmem
      obtain ⟨p, hp, -⟩ := hu.named e he
      obtain ⟨p', hp', -, -, hnot, -⟩ := hu'.objects e he p hp
      rw [hp', hp, hnot fun hin => hplace e.1 he ((hids _).mp hin)]
    · exact hu'.elsewhere place hmem

end SyncTable

/-! ## Objects that hold a value -/

/-- An object that holds a value. It tells the value unless it is silent, and counts what it takes
over. -/
structure Holder (s : Wire.Shape) where
  id : String
  value : s.Val
  silent : Bool
  applied : Nat

namespace Holder

/-- The value travels in one of the formats. -/
def behaviour (e : Encoding) (s : Wire.Shape) : SyncBehaviour (Holder s) where
  id o := o.id
  message o :=
    if o.silent then .error (.other (.reported "object is silent"))
    else (.sync o.id ·) <$> e.pack .full s o.value
  apply m o := do
    let value ← e.unpack .full s m.payload
    .ok { o with value := value, applied := o.applied + 1 }
  teardown o := o

/-- The form that a value travels in. -/
def packed (e : Encoding) (s : Wire.Shape) (v : s.Val) : Bytes :=
  match e.pack .full s v with
  | .ok bytes => bytes
  | .error _ => []

theorem pack_eq (e : Encoding) (s : Wire.Shape) (v : s.Val) :
    e.pack .full s v = .ok (packed e s v) := by
  unfold packed
  cases hpack : e.pack .full s v with
  | ok bytes => rfl
  | error err =>
    unfold Encoding.pack at hpack
    rw [Encoding.require_full] at hpack
    cases e <;> cases hpack

theorem behaviour_tells (e : Encoding) (s : Wire.Shape) :
    (behaviour e s).Tells Holder.value (packed e s) := by
  intro o m hm
  simp only [behaviour, pack_eq] at hm
  split at hm <;> cases hm
  rfl

/-- Values are taken over that the encoding can count the parts of. -/
theorem behaviour_takes (e : Encoding) {s : Wire.Shape} (hs : s.isPlain) :
    (behaviour e s).Takes Holder.value (packed e s)
      fun _ v => ∀ limit ∈ e.countLimit?, s.Fits limit v := by
  intro o v hfits
  have hunpack := Encoding.unpack_pack hs (pack_eq e s v) hfits
  refine ⟨{ o with value := v, applied := o.applied + 1 }, ?_, rfl, rfl, rfl⟩
  show (do
    let value ← e.unpack .full s (packed e s v)
    .ok { o with value := value, applied := o.applied + 1 }) = _
  rw [hunpack]
  rfl

end Holder

/-! ## A pair of peers -/

namespace SyncTable

/-- Objects that hold numbers. -/
def numbers : SyncBehaviour (Holder (.uint .w64)) := Holder.behaviour .bincode (.uint .w64)

def holding (entries : List (String × UInt64 × Bool)) : SyncTable (Holder (.uint .w64)) :=
  entries.foldl (fun t (id, value, silent) => (t.add numbers ⟨id, value, silent, 0⟩).1) empty

theorem tidy_holding (entries : List (String × UInt64 × Bool)) : (holding entries).Tidy numbers := by
  unfold holding
  induction entries using List.reverseRecOn with
  | nil => exact tidy_empty numbers
  | append_singleton front entry ih =>
    rw [List.foldl_append]
    exact ih.add _

/-- A node whose second object is silent and whose third has an id that is too long. -/
def teller : SyncTable (Holder (.uint .w64)) :=
  holding [("a", 7, false), ("b", 8, true), ("thermometer", 9, false), ("d", 10, false)]

def listener : SyncTable (Holder (.uint .w64)) :=
  holding [("c", 1, false), ("d", 2, true), ("b", 3, false), ("a", 4, false)]

/-- Where the teller lives. -/
def home : Site :=
  .new (.new .server { NetworkConfig.default with encoding := .bincode, maxFrame := 32 }
    (.ipv4 10 8 8 8 8) none)

def ofA : SyncMessage := .sync "a" [7, 0, 0, 0, 0, 0, 0, 0]

def ofD : SyncMessage := .sync "d" [10, 0, 0, 0, 0, 0, 0, 0]

theorem told_teller : teller.told numbers home.net = [ofA, ofD] := by
  decide +kernel

/-- Two numbers are told. The peer takes them over however often they come, and keeps its others. -/
theorem peers_agree_on_two :
    (teller.sync numbers home).2 = 2 ∧
    ∃ u', [ofD, ofA, ofD].foldlM (fun v m => v.handle numbers (.sync m)) listener = .ok u' ∧
      (∃ p, u'.get? "a" = some p ∧ p.value = (7 : UInt64)) ∧
      (∃ p, u'.get? "d" = some p ∧ p.value = (10 : UInt64)) ∧
      u'.objects[0]? = listener.objects[0]? ∧ u'.objects[2]? = listener.objects[2]? := by
  have htells : numbers.Tells Holder.value _ := Holder.behaviour_tells _ _
  have htakes : numbers.Takes Holder.value _ _ := Holder.behaviour_takes .bincode rfl
  have hteller : teller.Tidy numbers := tidy_holding _
  have hlistener : listener.Tidy numbers := tidy_holding _
  obtain ⟨⟨frames, -, -, hcount⟩, -, final, hfinal⟩ :=
    peers_agree htells htakes hteller hlistener (fun _ _ _ _ _ _ _ => trivial) home
  rw [told_teller] at hcount hfinal
  obtain ⟨u', hfold, -, -, hstates, hothers⟩ := hfinal [ofD, ofA, ofD] fun m => by
    simp only [List.mem_cons, List.not_mem_nil, or_false]
    tauto
  have hpresent (o : Holder (.uint .w64)) (ho : o ∈ teller.shared)
      (hsilent : (home.net.taken? (numbers.message o)).isSome) (p)
      (hp : listener.get? o.id = some p) : ∃ p, u'.get? o.id = some p ∧ p.value = o.value := by
    obtain ⟨p', hp', -, hvalue⟩ := hstates o ho hsilent p hp
    exact ⟨p', hp', hvalue⟩
  have hregistered : listener.registered = [("c", 0), ("d", 1), ("b", 2), ("a", 3)] := rfl
  refine ⟨hcount, u', hfold, ?_, ?_, ?_, ?_⟩
  · exact hpresent ⟨"a", (7 : UInt64), false, 0⟩ (.head _) (by decide +kernel) _ rfl
  · exact hpresent ⟨"d", (10 : UInt64), false, 0⟩ (.tail _ (.tail _ (.tail _ (.head _))))
      (by decide +kernel) _ rfl
  · exact hothers 0 (by simp [hregistered, ofA, ofD, SyncMessage.sync])
  · exact hothers 2 (by simp [hregistered, ofA, ofD, SyncMessage.sync])

end SyncTable

end Parley
