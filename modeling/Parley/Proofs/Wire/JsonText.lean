import Parley.Proofs.Json.Reader
import Parley.Proofs.Text.Utf8
import Parley.Proofs.Wire.Shape
import Parley.Wire.JsonText

/-!
# Values are read back from their JSON

The tree of a value tells all of it (`JsonText.isExact_ofVal`) and stands for that value only
(`JsonText.toVal?_ofVal`), so a value is read back from its text (`JsonText.read?_write`), and a
record if no two of its fields have the same name (`JsonText.readRecord?_writeRecord`). There are no
limits on lengths here.
-/

namespace Parley

namespace Wire

namespace JsonText

/-! ## Trees of values -/

theorem areExact_map {α : Type} {tree : α → Json} {xs : List α}
    (h : ∀ x ∈ xs, (tree x).isExact = true) : Json.areExact (xs.map tree) = true := by
  induction xs with
  | nil => rfl
  | cons x xs ih =>
    rw [List.map_cons, Json.areExact, h x List.mem_cons_self, Bool.true_and]
    exact ih fun y hy => h y (List.mem_cons_of_mem _ hy)

/-- The tree of a value tells all of it. -/
theorem isExact_ofVal (s : Shape) (v : s.Val) : (ofVal s v).isExact = true := by
  induction s with
  | unit => rfl
  | bool => rfl
  | uint w => rfl
  | int w => rfl
  | text => rfl
  | bytes => exact areExact_map fun b _ => rfl
  | code codes => rfl
  | option s ih =>
    cases v with
    | none => rfl
    | some v => exact ih v
  | list s ih => exact areExact_map fun x _ => ih x
  | pair a b iha ihb =>
    obtain ⟨x, y⟩ := v
    simp only [ofVal, Json.isExact, Json.areExact, iha x, ihb y, Bool.and_true]

theorem mapM_map_some {α β : Type} {tree : α → β} {value? : β → Option α} {xs : List α}
    (h : ∀ x ∈ xs, value? (tree x) = some x) : (xs.map tree).mapM value? = some xs := by
  induction xs with
  | nil => rfl
  | cons x xs ih =>
    have hxs := ih fun y hy => h y (List.mem_cons_of_mem _ hy)
    rw [List.map_cons, List.mapM_cons, h x List.mem_cons_self, hxs]
    rfl

/-- A value that shows is not written as a missing one. -/
theorem ofVal_ne_null {s : Shape} (hs : (Shape.option s).isPlain) (v : s.Val) :
    ofVal s v ≠ .null := by
  cases s <;> first | exact Json.noConfusion | cases hs

/-- The tree of a value stands for that value only. -/
theorem toVal?_ofVal {s : Shape} (hs : s.isPlain) (v : s.Val) : toVal? s (ofVal s v) = some v := by
  induction s with
  | unit => rfl
  | bool => rfl
  | uint w => exact Width.word?_natOf v
  | int w => exact Width.signed?_intOf v
  | text => exact Utf8.decode?_encode v
  | bytes => exact mapM_map_some fun b _ => Width.word?_natOf (w := .w8) b
  | code codes =>
    obtain ⟨c, hc⟩ := v
    have hword : word? .w8 (.integer c.toNat) = some c := Width.word?_natOf (w := .w8) c
    simp only [ofVal, toVal?, hword, Option.bind_some, Shape.codeOf?_mem hc]
  | option s ih =>
    cases v with
    | none => rfl
    | some v =>
      have hback := ih (Shape.isPlain_of_option hs) v
      have hnull := ofVal_ne_null hs v
      cases htree : ofVal s v with
      | null => exact absurd htree hnull
      | _ =>
        rw [htree] at hback
        simp only [ofVal, htree, toVal?, hback, Option.map_some]
  | list s ih => exact mapM_map_some fun x _ => ih hs x
  | pair a b iha ihb =>
    obtain ⟨x, y⟩ := v
    simp only [Shape.isPlain, Bool.and_eq_true] at hs
    simp only [ofVal, toVal?, iha hs.1 x, ihb hs.2 y]

/-! ## Records -/

theorem areExactMembers_members (r : Record) (v : r.Val) :
    Json.areExactMembers (members r v) = true := by
  induction r with
  | nil => rfl
  | cons f fs ih =>
    obtain ⟨v, vs⟩ := v
    simp only [members, Json.areExactMembers, isExact_ofVal, ih vs, Bool.and_true]

theorem encode_inj {name other : String} : Utf8.encode name = Utf8.encode other ↔ name = other := by
  constructor
  · intro h
    have hdecode := congrArg Utf8.decode? h
    rw [Utf8.decode?_encode, Utf8.decode?_encode] at hdecode
    exact Option.some.inj hdecode
  · exact congrArg Utf8.encode

theorem exists_of_mem_members {r : Record} {v : r.Val} {m : Bytes × Json} (h : m ∈ members r v) :
    ∃ f ∈ r, m.1 = Utf8.encode f.name := by
  induction r with
  | nil => cases h
  | cons f fs ih =>
    rcases List.mem_cons.mp h with rfl | htail
    · exact ⟨f, List.mem_cons_self, rfl⟩
    · obtain ⟨g, hg, hname⟩ := ih htail
      exact ⟨g, List.mem_cons_of_mem _ hg, hname⟩

/-- The fields are found among the members, whatever other members stand before them. -/
theorem ofMembers?_members {r : Record} (hr : r.isPlain) (hnames : (r.map Field.name).Nodup)
    (v : r.Val) (front : List (Bytes × Json))
    (hfront : ∀ m ∈ front, ∀ f ∈ r, m.1 ≠ Utf8.encode f.name) :
    ofMembers? r (front ++ members r v) = some v := by
  induction r generalizing front with
  | nil => rfl
  | cons f fs ih =>
    obtain ⟨v, vs⟩ := v
    rw [Record.isPlain_cons] at hr
    rw [List.map_cons, List.nodup_cons] at hnames
    have hother : ∀ g ∈ fs, Utf8.encode g.name ≠ Utf8.encode f.name := by
      intro g hg he
      exact hnames.1 (encode_inj.mp he ▸ List.mem_map_of_mem hg)
    -- the field stands among the members once
    have hbefore : front.filter (·.1 == Utf8.encode f.name) = [] := by
      rw [List.filter_eq_nil_iff]
      intro m hm
      rw [beq_iff_eq]
      exact hfront m hm f List.mem_cons_self
    have hbehind : (members fs vs).filter (·.1 == Utf8.encode f.name) = [] := by
      rw [List.filter_eq_nil_iff]
      intro m hm
      obtain ⟨g, hg, hname⟩ := exists_of_mem_members hm
      rw [beq_iff_eq, hname]
      exact hother g hg
    -- to the other fields its member is one more that stands before theirs
    have hrest : ofMembers? fs (front ++ members (f :: fs) (v, vs)) = some vs := by
      rw [members, List.append_cons]
      refine ih hr.2 hnames.2 vs _ ?_
      intro m hm g hg
      rcases List.mem_append.mp hm with hm | hm
      · exact hfront m hm g (List.mem_cons_of_mem _ hg)
      · rw [List.mem_singleton.mp hm]
        exact (hother g hg).symm
    rw [ofMembers?, hrest]
    simp only [members, List.filter_append, hbefore, List.nil_append, List.filter_cons,
      beq_self_eq_true, if_true, hbehind, toVal?_ofVal hr.1]

/-- A value is read back from its text. -/
theorem read?_write {s : Shape} (hs : s.isPlain) (v : s.Val) : read? s (write s v) = some v := by
  have hparse : Json.parse? (ofVal s v).render = some (ofVal s v) :=
    Json.parse?_render (isExact_ofVal s v)
  rw [read?, write, hparse, Option.bind_some, toVal?_ofVal hs v]

/-- A record is read back from its text. -/
theorem readRecord?_writeRecord {r : Record} (hr : r.isPlain) (hnames : (r.map Field.name).Nodup)
    (v : r.Val) : readRecord? r (writeRecord r v) = some v := by
  have hparse : Json.parse? (Json.object (members r v)).render = some (.object (members r v)) :=
    Json.parse?_render (areExactMembers_members r v)
  have hadmissible : (members r v).all (isAdmissible r) = true := by
    rw [List.all_eq_true]
    intro m hm
    obtain ⟨f, hf, hname⟩ := exists_of_mem_members hm
    have hany : r.any (Utf8.encode ·.name == m.1) = true :=
      List.any_eq_true.mpr ⟨f, hf, beq_iff_eq.mpr hname.symm⟩
    rw [isAdmissible, hany, hname, Utf8.decode?_encode]
    rfl
  have hmembers : ofMembers? r (members r v) = some v :=
    ofMembers?_members hr hnames v [] fun m hm => nomatch hm
  rw [readRecord?, writeRecord, hparse, Option.bind_some, toRecord?, if_pos hadmissible, hmembers]

end JsonText

end Wire

end Parley
