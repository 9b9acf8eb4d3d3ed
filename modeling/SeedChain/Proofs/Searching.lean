import Mathlib.Data.List.Infix
import Mathlib.Tactic.Common
import SeedChain.Operation.Table
/-!
# Searching lists

What the operations that look for a text in a list say about it: whether it is there, where it stands
first, how often it occurs, and what is left or put in its place. All of them are read off the items and
their multiplicities. The items that `distinct` keeps stand in the order of their first places
(`distinct_ordered`), which are different, so none is kept twice.

Main result: `searches_agree`.
-/

namespace SeedChain.ItemList

variable {x y z arg : Text} {items : List Text} {k : Nat} {l : ItemList}

/-! ## First places -/

theorem indexOf_of_mem (h : x ∈ items) : indexOf x items = items.idxOf x := by
  have hfind : items.findIdx? (· == x) = some (items.idxOf x) :=
    List.findIdx?_eq_some_iff_findIdx_eq.2 ⟨List.idxOf_lt_length_iff.2 h, rfl⟩
  rw [indexOf, hfind]

theorem indexOf_of_not_mem (h : x ∉ items) : indexOf x items = -1 := by
  have hfind : items.findIdx? (· == x) = none := by
    rw [List.findIdx?_eq_none_iff]
    rintro y hy
    rw [beq_eq_false_iff_ne]
    rintro rfl
    exact h hy
  rw [indexOf, hfind]

theorem indexOf_bounds (x : Text) (items : List Text) :
    -1 ≤ indexOf x items ∧ indexOf x items < items.length := by
  by_cases h : x ∈ items
  · have hlength := List.idxOf_lt_length_iff.2 h
    rw [indexOf_of_mem h]
    omega
  · rw [indexOf_of_not_mem h]
    omega

theorem indexOf_nonneg_iff : 0 ≤ indexOf x items ↔ x ∈ items := by
  by_cases h : x ∈ items
  · simp [indexOf_of_mem h, h]
  · simp [indexOf_of_not_mem h, h]

theorem getElem?_of_indexOf (h : indexOf x items = k) : items[k]? = some x := by
  have hmem : x ∈ items := indexOf_nonneg_iff.1 (by omega)
  rw [indexOf_of_mem hmem, Int.natCast_inj] at h
  subst h
  exact List.getElem?_idxOf hmem

/-- No item in front of the first place is the text. -/
theorem getElem?_of_lt_indexOf (h : (k : Int) < indexOf x items) : ∃ y ≠ x, items[k]? = some y := by
  have hmem : x ∈ items := indexOf_nonneg_iff.1 (by omega)
  rw [indexOf_of_mem hmem, Int.ofNat_lt] at h
  have hlength := h.trans (List.idxOf_lt_length_iff.2 hmem)
  refine ⟨items[k], ?_, List.getElem?_eq_getElem hlength⟩
  simpa using List.not_of_lt_findIdx h

/-! ## Items without repetitions -/

theorem distinct_concat (items : List Text) (x : Text) : distinct (items ++ [x]) =
    if x ∈ distinct items then distinct items else distinct items ++ [x] := by
  simp [distinct, List.foldl_append]

theorem mem_distinct : x ∈ distinct items ↔ x ∈ items := by
  induction items using List.reverseRecOn with
  | nil => simp [distinct]
  | append_singleton items y ih =>
    rw [distinct_concat, List.mem_append, List.mem_singleton, ← ih]
    split
    · rename_i hy
      constructor
      · exact .inl
      · rintro (h | rfl)
        · exact h
        · exact hy
    · rw [List.mem_append, List.mem_singleton]

/-- Items are kept in the order of their first places. -/
theorem distinct_ordered (items : List Text) :
    (distinct items).Pairwise fun a b => indexOf a items < indexOf b items := by
  induction items using List.reverseRecOn with
  | nil => exact .nil
  | append_singleton items x ih =>
    -- the first places of items stay the same when another one is put behind
    have hkeep : ∀ a ∈ items, indexOf a (items ++ [x]) = indexOf a items := by
      intro a ha
      rw [indexOf_of_mem ha, indexOf_of_mem (List.mem_append_left _ ha), List.idxOf_append_of_mem ha]
    have hall : (distinct items).Pairwise fun a b =>
        indexOf a (items ++ [x]) < indexOf b (items ++ [x]) := by
      refine ih.imp_of_mem fun ha hb hlt => ?_
      rwa [hkeep _ (mem_distinct.1 ha), hkeep _ (mem_distinct.1 hb)]
    rw [distinct_concat]
    split
    · exact hall
    · rename_i hx
      rw [mem_distinct] at hx
      refine List.pairwise_append.2 ⟨hall, List.pairwise_singleton _ _, fun a ha b hb => ?_⟩
      obtain rfl := List.mem_singleton.1 hb
      have hlast : (items ++ [b]).idxOf b = items.length := by
        simp [List.idxOf_append_of_notMem hx]
      rw [mem_distinct] at ha
      rw [hkeep a ha, indexOf_of_mem ha, indexOf_of_mem (by simp), hlast, Int.ofNat_lt]
      exact List.idxOf_lt_length_iff.2 ha

theorem count_distinct (items : List Text) (x : Text) :
    (distinct items).count x = if x ∈ items then 1 else 0 := by
  have hnodup : (distinct items).Nodup := by
    refine (distinct_ordered items).imp ?_
    rintro a _ hlt rfl
    exact Int.lt_irrefl _ hlt
  rw [hnodup.count, if_congr mem_distinct rfl rfl]

/-! ## Items replaced and taken out -/

theorem count_substitute_search (hne : y ≠ x) (items : List Text) :
    (substitute x y items).count x = 0 := by
  rw [List.count_eq_zero, substitute, List.mem_map]
  rintro ⟨item, -, h⟩
  split at h
  · exact hne h
  · contradiction

theorem count_substitute_replacement (hne : y ≠ x) (items : List Text) :
    (substitute x y items).count y = items.count x + items.count y := by
  induction items with
  | nil => rfl
  | cons item items ih =>
    rw [substitute] at ih ⊢
    rw [List.map_cons, List.count_cons, List.count_cons, List.count_cons, ih]
    by_cases hitem : item = x
    · subst hitem
      simp [hne.symm]
      omega
    · simp [hitem]
      omega

/-- The items other than a text. -/
def without (x : Text) (items : List Text) : List Text := items.filter fun item => !List.contains [x] item

theorem mem_without : z ∈ without x items ↔ z ∈ items ∧ z ≠ x := by
  simp [without]

theorem count_without_of_ne (h : z ≠ x) : (without x items).count z = items.count z :=
  List.count_filter (by simp [h])

theorem without_cons (x item : Text) (items : List Text) : without x (item :: items) =
    if item = x then without x items else item :: without x items := by
  by_cases h : item = x <;> simp [without, h]

theorem length_without_add_count (x : Text) (items : List Text) :
    (without x items).length + items.count x = items.length := by
  induction items with
  | nil => rfl
  | cons item items ih =>
    rw [without_cons, List.count_cons, List.length_cons]
    by_cases hitem : item = x
    · simp only [hitem, if_true, beq_self_eq_true]
      omega
    · simp only [hitem, if_false, List.length_cons, beq_iff_eq]
      omega

/-! ## The operations -/

theorem gives_count (l : ItemList) (x : Text) :
    (Value.list l).Gives "count" [x] (.ofCount (l.items.count x)) := fun _ _ => rfl

theorem gives_size (l : ItemList) : (Value.list l).Gives "size" [] (.ofCount l.items.length) := fun _ _ => rfl

/-- `index` gives an integer, which is a place in the list or -1. -/
structure HasIndex (l : ItemList) (x : Text) (index : Int) : Prop where
  gives : (Value.list l).Gives "index" [x] (.number (.ofInt index))
  bounds : -1 ≤ index ∧ index < l.items.length

theorem hasIndex_indexOf (l : ItemList) (x : Text) : HasIndex l x (indexOf x l.items) :=
  ⟨fun _ _ => rfl, indexOf_bounds x l.items⟩

theorem gives_item (harg : Text.integer? arg.trim = some (k : Int)) (h : l.items[k]? = some x) :
    (Value.list l).Gives "item" [arg] (.text x) := by
  intro delimiter store
  have hlength : (k : Int) < l.items.length := Int.ofNat_lt.2 (List.getElem?_eq_some_iff.1 h).1
  have hposition : l.position? k = some k := by
    have hnonneg : ¬ (k : Int) < 0 := by omega
    simp only [position?, hnonneg, if_false]
    rw [if_pos ⟨by omega, hlength⟩]
    rfl
  have hint : Args.int? ⟨[some arg], []⟩ 0 "item" = .ok (some (k : Int)) :=
    Args.int?_of_integer? (show Text.integer? (Args.getD ⟨[some arg], []⟩ 0 []).trim = _ from harg) "item"
  change (itemAt delimiter l ⟨[some arg], []⟩, store) = _
  rw [itemAt, hint]
  change (goOnItem ((l.position? k).bind fun i => l.items[i]?), store) = _
  rw [hposition, Option.bind_some, h]
  rfl

/-- The searches for a text agree with each other and with what the changes leave. `count` and `size` are
the multiplicity and the length. The text is contained if it has a place, and if it occurs at all. Its
index is the place of the first item equal to it. `removeItems` takes out exactly its occurrences,
`replace` makes them occurrences of another text, and `distinct` keeps each item once, in the order of the
indices. -/
theorem searches_agree (l : ItemList) (x : Text) :
    (∀ (l : ItemList) (z : Text), (Value.list l).Gives "count" [z] (.ofCount (l.items.count z)) ∧
      (Value.list l).Gives "size" [] (.ofCount l.items.length)) ∧
    (∃ found index, (Value.list l).Gives "contains" [x] (.ofBool found) ∧ HasIndex l x index ∧
      (found = true ↔ 0 ≤ index) ∧ (0 ≤ index ↔ 0 < l.items.count x) ∧
      ∀ (k : Nat) (arg : Text), Text.integer? arg.trim = some (k : Int) →
        (index = k → (Value.list l).Gives "item" [arg] (.text x)) ∧
        (k < index → ∃ y ≠ x, (Value.list l).Gives "item" [arg] (.text y))) ∧
    (∃ rest : ItemList, (Value.list l).Gives "removeItems" [x] (.list rest) ∧ rest.items.count x = 0 ∧
      rest.items.length + l.items.count x = l.items.length ∧ rest.items.Sublist l.items ∧
      ∀ z ≠ x, rest.items.count z = l.items.count z) ∧
    (∀ y ≠ x, ∃ replaced : ItemList, (Value.list l).Gives "replace" [x, y] (.list replaced) ∧
      replaced.items.count x = 0 ∧
      replaced.items.count y = l.items.count x + l.items.count y ∧
      replaced.items.length = l.items.length) ∧
    ∃ kept : ItemList, (Value.list l).Gives "distinct" [] (.list kept) ∧
      (∀ z, kept.items.count z = if z ∈ l.items then 1 else 0) ∧
      kept.items.Pairwise fun a b => ∃ i j, HasIndex l a i ∧ HasIndex l b j ∧ i < j := by
  refine ⟨fun l z => ⟨gives_count l z, gives_size l⟩, ?_, ?_, ?_, ?_⟩
  · refine ⟨l.items.contains x, indexOf x l.items, fun _ _ => rfl, hasIndex_indexOf l x, ?_, ?_, ?_⟩
    · rw [indexOf_nonneg_iff, List.contains_iff_mem]
    · rw [indexOf_nonneg_iff, List.count_pos_iff]
    · intro k arg harg
      constructor
      · intro hindex
        exact gives_item harg (getElem?_of_indexOf hindex)
      · intro hlt
        obtain ⟨y, hne, hy⟩ := getElem?_of_lt_indexOf hlt
        exact ⟨y, hne, gives_item harg hy⟩
  · refine ⟨{ l with items := without x l.items }, fun _ _ => rfl, ?_, length_without_add_count x _,
      List.filter_sublist, fun z hz => count_without_of_ne hz⟩
    rw [List.count_eq_zero, mem_without]
    exact fun h => h.2 rfl
  · intro y hne
    exact ⟨{ l with items := substitute x y l.items }, fun _ _ => rfl,
      count_substitute_search hne l.items, count_substitute_replacement hne l.items,
      List.length_map _⟩
  · refine ⟨{ l with items := distinct l.items }, fun _ _ => rfl, count_distinct l.items, ?_⟩
    refine (distinct_ordered l.items).imp ?_
    intro a b hlt
    exact ⟨_, _, hasIndex_indexOf l a, hasIndex_indexOf l b, hlt⟩

/-- An item that is empty and stands twice, and is looked for behind another one. -/
theorem searches_agree_empty :
    let l : ItemList := ⟨[['a'], [], ['b'], []], ','⟩
    let replaced : ItemList := ⟨[['a'], ['a'], ['b'], ['a']], ','⟩
    HasIndex l [] 1 ∧
    Text.integer? (Text.trim ['1']) = some ((1 : Nat) : Int) ∧ (Value.list l).Gives "item" [['1']] (.text []) ∧
    Text.integer? (Text.trim ['0']) = some ((0 : Nat) : Int) ∧
    (∃ y ≠ [], (Value.list l).Gives "item" [['0']] (.text y)) ∧
    ['a'] ≠ ([] : Text) ∧ (Value.list l).Gives "replace" [[], ['a']] (.list replaced) ∧
    replaced.items.count [] = 0 := by
  intro l replaced
  have hindex : HasIndex l [] 1 := ⟨fun _ _ => rfl, by decide⟩
  have hreplace : (Value.list l).Gives "replace" [[], ['a']] (.list replaced) := fun _ _ => rfl
  have hone : Text.integer? (Text.trim ['1']) = some ((1 : Nat) : Int) := by decide
  have hzero : Text.integer? (Text.trim ['0']) = some ((0 : Nat) : Int) := by decide
  have hne : ['a'] ≠ ([] : Text) := List.cons_ne_nil _ _
  obtain ⟨-, ⟨_, index, -, ⟨hplace, hmin, hmax⟩, -, -, hitem⟩, -, hsubstitute, -⟩ := searches_agree l []
  obtain ⟨_, hput, hgone, -⟩ := hsubstitute ['a'] hne
  have heq : index = 1 := by
    have hsame := (hindex.gives ',' []).symm.trans (hplace ',' [])
    have hnumber := Value.number.inj (Option.some.inj (Except.ok.inj (Prod.mk.inj hsame).1))
    have hlength : index < 4 := hmax
    have hbound : index.natAbs < Decimal.limit := by
      unfold Decimal.limit
      omega
    exact (Decimal.ofInt_inj (by decide) hbound hnumber).symm
  obtain rfl := Value.list.inj (Option.some.inj (Except.ok.inj (Prod.mk.inj
    ((hreplace ',' []).symm.trans (hput ',' []))).1))
  exact ⟨hindex, hone, (hitem 1 ['1'] hone).1 heq, hzero, (hitem 0 ['0'] hzero).2 (by omega), hne,
    hreplace, hgone⟩

end SeedChain.ItemList
