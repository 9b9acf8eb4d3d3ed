import SeedChain.Operation.Table
/-!
# Items in order

One order is taken for all items of a list: by amount if every item is a number, else by code points. A
single item that is no number decides for the others too. Either way the items are sorted by merging
(`sorted_of_numbers`, `sorted_of_texts`), which keeps the places of what the order does not tell apart:
equal amounts may be spelled in different ways (`sortedByAmount_mergeSort`), equal texts are the same.

Main result: `ascending` and `descending` give the items in order and in reverse, and sorting what is
sorted changes nothing (`ascending_descending`).
-/

namespace SeedChain.ItemList

variable {items others : List Text}

/-- Every item is a number. -/
def AllNumbers (items : List Text) : Prop := ∀ item ∈ items, (Decimal.read? item).isSome = true

/-- The items with their places: amounts do not fall, and items of the same amount stand as they stood. -/
def SortedByAmount (items sorted : List Text) : Prop :=
  ∃ placed : List (Text × Nat), placed.Perm items.zipIdx ∧ sorted = placed.map Prod.fst ∧
    placed.Pairwise fun a b => ∃ x y, Decimal.read? a.1 = some x ∧ Decimal.read? b.1 = some y ∧
      (x.units < y.units ∨ x.units = y.units ∧ a.2 < b.2)

/-! ## Numbers -/

/-- The amount of an item that is a number. -/
def amount (item : Text) : Int :=
  match Decimal.read? item with
  | some d => d.units
  | none => 0

/-- The order of items by amount. -/
def amountLe (a b : Text) : Bool := decide (amount a ≤ amount b)

theorem amountLe_trans (a b c : Text) (hab : amountLe a b = true) (hbc : amountLe b c = true) :
    amountLe a c = true := by
  simp only [amountLe, decide_eq_true_eq] at *
  omega

theorem amountLe_total (a b : Text) : (amountLe a b || amountLe b a) = true := by
  simp only [amountLe, Bool.or_eq_true, decide_eq_true_eq]
  omega

theorem AllNumbers.of_subset (h : AllNumbers items) (hsub : others ⊆ items) : AllNumbers others :=
  fun item hitem => h item (hsub hitem)

theorem exists_mapM_iff : (∃ numbers, items.mapM Decimal.read? = some numbers) ↔ AllNumbers items := by
  induction items with
  | nil => exact iff_of_true ⟨[], rfl⟩ nofun
  | cons item items ih =>
    simp only [List.mapM_cons, Option.bind_eq_bind, Option.bind_eq_some_iff]
    constructor
    · rintro ⟨_, d, hd, ds, hds, -⟩
      exact List.forall_mem_cons.2 ⟨Option.isSome_iff_exists.2 ⟨d, hd⟩, ih.1 ⟨ds, hds⟩⟩
    · intro h
      obtain ⟨hitem, hitems⟩ := List.forall_mem_cons.1 h
      obtain ⟨d, hd⟩ := Option.isSome_iff_exists.1 hitem
      obtain ⟨ds, hds⟩ := ih.2 hitems
      exact ⟨d :: ds, d, hd, ds, hds, rfl⟩

/-- The numbers stand beside the items they are read from. -/
theorem zip_of_mapM {numbers : List Decimal} (h : items.mapM Decimal.read? = some numbers) :
    (numbers.zip items).map Prod.snd = items ∧
      ∀ pair ∈ numbers.zip items, Decimal.read? pair.2 = some pair.1 := by
  induction items generalizing numbers with
  | nil =>
    obtain rfl := Option.some.inj h
    exact ⟨rfl, nofun⟩
  | cons item items ih =>
    simp only [List.mapM_cons, Option.bind_eq_bind, Option.bind_eq_some_iff] at h
    obtain ⟨d, hd, ds, hds, heq⟩ := h
    obtain rfl := Option.some.inj heq
    obtain ⟨hsnd, hread⟩ := ih hds
    exact ⟨congrArg (item :: ·) hsnd, List.forall_mem_cons.2 ⟨hd, hread⟩⟩

theorem sorted_of_numbers (h : AllNumbers items) : sorted items = items.mergeSort amountLe := by
  obtain ⟨numbers, hnumbers⟩ := exists_mapM_iff.2 h
  obtain ⟨hitems, hread⟩ := zip_of_mapM hnumbers
  have horder : ∀ a ∈ numbers.zip items, ∀ b ∈ numbers.zip items,
      a.1.le b.1 = amountLe a.2 b.2 := by
    intro a ha b hb
    simp only [amountLe, amount, hread a ha, hread b hb, Decimal.le]
  rw [sorted, hnumbers]
  exact (List.map_mergeSort horder).trans (congrArg (List.mergeSort · amountLe) hitems)

theorem pairwise_ne_zipIdx (items : List Text) : items.zipIdx.Pairwise fun a b => a.2 ≠ b.2 := by
  refine List.pairwise_map.1 (?_ : (items.zipIdx.map Prod.snd).Nodup)
  rw [List.zipIdx_map_snd]
  exact List.nodup_range'

/-- Merging keeps the places of equal amounts. -/
theorem sortedByAmount_mergeSort (h : AllNumbers items) :
    SortedByAmount items (items.mergeSort amountLe) := by
  have hperm := List.mergeSort_perm items.zipIdx (List.zipIdxLE amountLe)
  have hplaces : (items.zipIdx.mergeSort (List.zipIdxLE amountLe)).Pairwise fun a b => a.2 ≠ b.2 :=
    hperm.symm.pairwise (pairwise_ne_zipIdx items) Ne.symm
  have hsorted := List.pairwise_mergeSort (List.zipIdxLE_trans amountLe_trans)
    (List.zipIdxLE_total amountLe_total) items.zipIdx
  refine ⟨_, hperm, List.mergeSort_zipIdx.symm, (hsorted.and hplaces).imp_of_mem ?_⟩
  rintro a b ha hb ⟨hle, hne⟩
  have hread {c : Text × Nat} (hc : c ∈ items.zipIdx.mergeSort (List.zipIdxLE amountLe)) :
      ∃ x, Decimal.read? c.1 = some x ∧ amount c.1 = x.units := by
    obtain ⟨x, hx⟩ := Option.isSome_iff_exists.1
      (h c.1 (List.fst_mem_of_mem_zipIdx (hperm.mem_iff.1 hc)))
    exact ⟨x, hx, by simp only [amount, hx]⟩
  obtain ⟨x, hx, hax⟩ := hread ha
  obtain ⟨y, hy, hby⟩ := hread hb
  refine ⟨x, y, hx, hy, ?_⟩
  -- the places count only where each amount is at most the other one
  simp only [List.zipIdxLE, amountLe, hax, hby, decide_eq_true_eq] at hle
  split at hle
  · split at hle
    · simp only [decide_eq_true_eq] at hle
      omega
    · omega
  · cases hle

/-! ## Texts -/

theorem ordered_iff {s t : Text} : Text.ordered s t = true ↔ ¬ t < s := by
  rw [Text.ordered, Bool.not_eq_true', decide_eq_false_iff_not]

theorem sorted_of_texts (h : ¬ AllNumbers items) : sorted items = items.mergeSort Text.ordered := by
  unfold sorted
  split
  · rename_i numbers hnumbers
    exact absurd (exists_mapM_iff.1 ⟨numbers, hnumbers⟩) h
  · rfl

theorem pairwise_le_mergeSort (items : List Text) :
    (items.mergeSort Text.ordered).Pairwise fun a b => ¬ b < a := by
  refine (List.pairwise_mergeSort ?_ ?_ items).imp ordered_iff.1
  · intro a b c hab hbc
    exact ordered_iff.2 (List.le_trans (ordered_iff.1 hab) (ordered_iff.1 hbc))
  · intro a b
    rw [Bool.or_eq_true, ordered_iff, ordered_iff]
    exact List.le_total a b

/-! ## Both orders -/

theorem sorted_perm (items : List Text) : (sorted items).Perm items := by
  by_cases h : AllNumbers items
  · rw [sorted_of_numbers h]
    exact List.mergeSort_perm _ _
  · rw [sorted_of_texts h]
    exact List.mergeSort_perm _ _

theorem allNumbers_congr (h : others.Perm items) : AllNumbers others ↔ AllNumbers items :=
  ⟨fun hall => hall.of_subset h.symm.subset, fun hall => hall.of_subset h.subset⟩

/-- Sorting what is sorted changes nothing. -/
theorem sorted_sorted (items : List Text) : sorted (sorted items) = sorted items := by
  have hall := allNumbers_congr (sorted_perm items)
  by_cases h : AllNumbers items
  · rw [sorted_of_numbers (hall.2 h), sorted_of_numbers h]
    exact List.mergeSort_of_pairwise (List.pairwise_mergeSort amountLe_trans amountLe_total items)
  · rw [sorted_of_texts (mt hall.1 h), sorted_of_texts h]
    exact List.mergeSort_of_pairwise ((pairwise_le_mergeSort items).imp ordered_iff.2)

/-- In the order of texts there is one arrangement only. -/
theorem sorted_eq_of_pairwise (hperm : others.Perm items) (h : ¬ AllNumbers items)
    (hsorted : others.Pairwise fun a b => ¬ b < a) : sorted items = others := by
  rw [sorted_of_texts h]
  exact ((List.mergeSort_perm _ _).trans hperm.symm).eq_of_pairwise (fun _ _ _ _ => List.le_antisymm)
    (pairwise_le_mergeSort items) hsorted

theorem sorted_eq_of_perm (hperm : others.Perm items) (h : ¬ AllNumbers items) :
    sorted others = sorted items := by
  refine sorted_eq_of_pairwise ((sorted_perm items).trans hperm.symm)
    (mt (allNumbers_congr hperm).1 h) ?_
  rw [sorted_of_texts h]
  exact pairwise_le_mergeSort items

/-! ## The operations -/

theorem invoke_ascending (l : ItemList) (delimiter : Char) (store : Store) :
    (Value.list l).invoke delimiter "ascending".toList [] store =
      (goOn (.list { l with items := sorted l.items }), store) := rfl

theorem invoke_descending (l : ItemList) (delimiter : Char) (store : Store) :
    (Value.list l).invoke delimiter "descending".toList [] store =
      (goOn (.list { l with items := (sorted l.items).reverse }), store) := rfl

/-- `ascending` gives all items of a list: by amount if they are numbers, items of the same amount as they
stood, and else by code points. `descending` gives them the other way round. A list that has been sorted
stays as it is, and texts in descending order are put into the same ascending one. -/
theorem ascending_descending (l : ItemList) (delimiter : Char) (store : Store) :
    ∃ up down : ItemList,
      (Value.list l).invoke delimiter "ascending".toList [] store = (goOn (.list up), store) ∧
      (Value.list l).invoke delimiter "descending".toList [] store = (goOn (.list down), store) ∧
      up.delimiter = l.delimiter ∧ down = { up with items := up.items.reverse } ∧
      up.items.Perm l.items ∧
      (AllNumbers l.items → SortedByAmount l.items up.items) ∧
      (¬ AllNumbers l.items → up.items.Pairwise fun a b => ¬ b < a) ∧
      (Value.list up).invoke delimiter "ascending".toList [] store = (goOn (.list up), store) ∧
      (¬ AllNumbers l.items →
        (Value.list down).invoke delimiter "ascending".toList [] store = (goOn (.list up), store)) := by
  refine ⟨_, _, invoke_ascending l delimiter store, invoke_descending l delimiter store, rfl, rfl,
    sorted_perm l.items, fun h => ?_, fun h => ?_, ?_, fun h => ?_⟩
  · rw [sorted_of_numbers h]
    exact sortedByAmount_mergeSort h
  · rw [sorted_of_texts h]
    exact pairwise_le_mergeSort l.items
  · rw [invoke_ascending, sorted_sorted]
  · have hperm : (sorted l.items).reverse.Perm l.items :=
      (List.reverse_perm _).trans (sorted_perm l.items)
    rw [invoke_ascending, sorted_eq_of_perm hperm h]

/-- Two spellings of an amount with another number between them, and the same items with one that is no
number. -/
theorem ascending_descending_spellings :
    let numbers : ItemList := ⟨[['1', '.', '0'], ['-', '2'], ['+', '1']], ','⟩
    let texts : ItemList := ⟨['x'] :: numbers.items, ','⟩
    let up : ItemList := ⟨[['-', '2'], ['1', '.', '0'], ['+', '1']], ','⟩
    let upTexts : ItemList := ⟨[['+', '1'], ['-', '2'], ['1', '.', '0'], ['x']], ','⟩
    let downTexts : ItemList := { upTexts with items := upTexts.items.reverse }
    AllNumbers numbers.items ∧ ¬ AllNumbers texts.items ∧
    (Value.list numbers).invoke ',' "ascending".toList [] [] = (goOn (.list up), []) ∧
    SortedByAmount numbers.items up.items ∧
    (Value.list texts).invoke ',' "descending".toList [] [] = (goOn (.list downTexts), []) ∧
    upTexts.items.Pairwise (fun a b => ¬ b < a) ∧
    (Value.list downTexts).invoke ',' "ascending".toList [] [] = (goOn (.list upTexts), []) := by
  intro numbers texts up upTexts downTexts
  have hnumbers : AllNumbers numbers.items := by unfold AllNumbers; decide
  have htexts : ¬ AllNumbers texts.items := fun h => absurd (h ['x'] List.mem_cons_self) (by decide)
  have hsorted : sorted numbers.items = up.items := by
    have hfalse : amountLe ['1', '.', '0'] ['-', '2'] = false := by decide
    have hless : amountLe ['-', '2'] ['+', '1'] = true := by decide
    have hequal : amountLe ['1', '.', '0'] ['+', '1'] = true := by decide
    rw [sorted_of_numbers hnumbers]
    simp [numbers, up, List.mergeSort, hfalse, hless, hequal]
  have hsortedTexts : sorted texts.items = upTexts.items :=
    sorted_eq_of_pairwise (by decide) htexts (by decide)
  obtain ⟨_, _, hup, -, -, -, -, hamount, -⟩ := ascending_descending numbers ',' []
  obtain ⟨_, _, hupTexts, hdownTexts, -, rfl, -, -, htext, -, hagain⟩ :=
    ascending_descending texts ',' []
  rw [invoke_ascending, hsorted] at hup
  rw [invoke_ascending, hsortedTexts] at hupTexts
  cases hup
  cases hupTexts
  exact ⟨hnumbers, htexts, by rw [invoke_ascending, hsorted], hamount hnumbers, hdownTexts,
    htext htexts, hagain htexts⟩

end SeedChain.ItemList
