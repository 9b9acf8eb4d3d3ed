import SeedChain.Proofs.Collisions
import SeedChain.Proofs.Pieces
/-!
# Escapes, read from left to right

A text with escapes can be read in one go from left to right (`scan`): a backslash before a character
that can be escaped adds that character to the current item, a bare delimiter ends the item, and
every other character is added as it is. This needs no placeholder.

Each step of the scan meets one character of the encoded text (`scan_eq_pieces`), so lists are split
and texts unescaped exactly as the scan reads them (`split_and_unescape_eq_scan`).
-/

namespace SeedChain

namespace EscapeCodec

/-- Reads a text from left to right, with the item that has been read so far. A bare delimiter ends the
item if items are told apart at all. -/
def scan (delimiter : Char) (splits : Bool) (item : Text) : Text → List Text
  | [] => [item]
  | [c] => if splits ∧ c = delimiter then [item, []] else [item ++ [c]]
  | c :: x :: t =>
    if c = '\\' ∧ x ∈ ['(', ')', ',', ']', delimiter] then scan delimiter splits (item ++ [x]) t
    else if splits ∧ c = delimiter then item :: scan delimiter splits [] (x :: t)
    else scan delimiter splits (item ++ [c]) (x :: t)

/-- The character ends an item: it is the delimiter, and items are told apart. -/
def ends (codec : EscapeCodec) (splits : Bool) (c : Char) : Bool := splits && c == codec.delimiter

/-- The items of an encoded text, the first of them behind what has been read already. -/
def pieces (codec : EscapeCodec) (splits : Bool) (item encoded : Text) : List Text :=
  ((Text.splitWhen (codec.ends splits) encoded).map (codec.decode .literal)).modifyHead (item ++ ·)

variable {codec : EscapeCodec} {splits : Bool} {c x : Char} {item t : Text}

theorem ends_eq_true_iff : codec.ends splits c = true ↔ splits ∧ c = codec.delimiter := by
  simp [ends]

theorem pieces_of_nil (encoded : Text) : codec.pieces splits [] encoded =
    (Text.splitWhen (codec.ends splits) encoded).map (codec.decode .literal) := by
  unfold pieces
  generalize (Text.splitWhen _ _).map _ = items
  cases items <;> rfl

/-- Items that are not told apart are one. -/
theorem pieces_false (encoded : Text) :
    codec.pieces false item encoded = [item ++ codec.decode .literal encoded] := by
  have hends : ∀ c, codec.ends false c = false := fun _ => rfl
  rw [pieces, Text.splitWhen_of_forall_neg hends, List.map_singleton, List.modifyHead_cons]

theorem pieces_nil : codec.pieces splits item [] = [item] := by
  simp [pieces, Text.splitWhen, decode]

theorem pieces_delimiter (h : splits ∧ c = codec.delimiter) (encoded : Text) :
    codec.pieces splits item (c :: encoded) = item :: codec.pieces splits [] encoded := by
  rw [pieces_of_nil]
  simp [pieces, Text.splitWhen, ends_eq_true_iff.2 h, decode]

/-- A character that ends no item adds what it stands for. -/
theorem pieces_cons (h : ¬ (splits ∧ c = codec.delimiter)) (hx : codec.decode .literal [c] = [x])
    (encoded : Text) :
    codec.pieces splits item (c :: encoded) = codec.pieces splits (item ++ [x]) encoded := by
  have hends : codec.ends splits c = false := by rwa [← Bool.not_eq_true, ends_eq_true_iff]
  have hdecode (piece : Text) : codec.decode .literal (c :: piece) = x :: codec.decode .literal piece := by
    rw [← List.singleton_append, decode_append, hx, List.singleton_append]
  obtain ⟨piece, more, hsplit⟩ := List.exists_cons_of_ne_nil
    (Text.splitWhen_ne_nil (codec.ends splits) encoded)
  simp [pieces, Text.splitWhen_cons_of_neg hends, hsplit, hdecode]

theorem Avoids.decode_head (ha : codec.Avoids (c :: t)) : codec.decode .literal [c] = [c] :=
  ha.decode_singleton _ (.inr (by simp))

theorem Avoids.tail (ha : codec.Avoids (c :: t)) : codec.Avoids t :=
  ha.of_subset fun _ hc => List.mem_cons_of_mem _ hc

/-- What is no escape is read as it stands. -/
theorem scan_bare {encoded : Text} (ha : codec.Avoids (c :: x :: t))
    (hbare : ¬ (c = '\\' ∧ x ∈ ['(', ')', ',', ']', codec.delimiter]))
    (hrest : ∀ item, scan codec.delimiter splits item (x :: t) = codec.pieces splits item encoded) :
    scan codec.delimiter splits item (c :: x :: t) = codec.pieces splits item (c :: encoded) := by
  rw [scan, if_neg hbare]
  split
  · rename_i hend
    rw [pieces_delimiter hend, hrest]
  · rename_i hend
    rw [pieces_cons hend ha.decode_head, hrest]

/-- The scan reads a text as its encoding is split and decoded. -/
theorem scan_eq_pieces (ha : codec.Avoids t) (hcodec : codec.Complete)
    (hd : isPrivateUse codec.delimiter = false) (splits : Bool) (item : Text) :
    scan codec.delimiter splits item t = codec.pieces splits item (codec.encode t) := by
  fun_induction encode codec t generalizing item with
  | case1 => rw [scan, pieces_nil]
  | case2 c =>
    rw [scan]
    split
    · rename_i hend
      rw [pieces_delimiter hend, pieces_nil]
    · rename_i hend
      rw [pieces_cons hend ha.decode_head, pieces_nil]
  | case3 x t p hp ih =>
    have hx := hcodec.exists_placeholder?_iff.1 ⟨p, hp⟩
    -- the placeholder is a private-use character, so it is not taken for the delimiter
    have hpublic : ¬ (splits ∧ p = codec.delimiter) := by
      rintro ⟨-, rfl⟩
      rw [isPrivateUse_of_placeholder? ha hp] at hd
      cases hd
    have hdecode : codec.decode .literal [p] = [x] := by
      simp [decode, decodeChar, ha.original?_of_placeholder? hp]
    rw [scan, if_pos ⟨rfl, hx⟩, pieces_cons hpublic hdecode, ih ha.tail.tail]
  | case4 x t hp ih =>
    refine scan_bare ha (fun hescape => ?_) (ih ha.tail)
    obtain ⟨p, hsome⟩ := hcodec.exists_placeholder?_iff.2 hescape.2
    rw [hp] at hsome
    cases hsome
  | case5 c x t hc ih => exact scan_bare ha (fun h => hc h.1) (ih ha.tail)

/-- A list is split into the items that the scan reads, an empty text having none; and a text is
unescaped to what the scan reads when no delimiter ends an item. -/
theorem split_and_unescape_eq_scan {delimiter : Char} (hd : isPrivateUse delimiter = false) {t : Text}
    (hfree : LeavesFree 5 t) :
    ItemList.split delimiter t = (if t = [] then [] else scan delimiter true [] t) ∧
      [unescape delimiter t] = scan delimiter false [] t := by
  have hscan := scan_eq_pieces (avoiding_avoids delimiter t) (avoiding_complete hfree) hd
  constructor
  · rw [ItemList.split]
    split
    · rfl
    · exact ((hscan true []).trans (pieces_of_nil _)).symm
  · exact ((hscan false []).trans (pieces_false _)).symm

/-- Where the delimiter is the backslash itself, one before a mark escapes it and any other one, also at
the end, ends an item. The private-use character is data. -/
theorem split_and_unescape_eq_scan_backslash :
    let t : Text := "a\\\\b\\x\uE000\\(\\".toList
    isPrivateUse '\\' = false ∧ LeavesFree 5 t ∧
    scan '\\' true [] t = ["a\\b".toList, "x\uE000(".toList, []] ∧
    scan '\\' false [] t = ["a\\b\\x\uE000(\\".toList] ∧
    ItemList.split '\\' t = (if t = [] then [] else scan '\\' true [] t) ∧
    [unescape '\\' t] = scan '\\' false [] t := by
  intro t
  have hall : ['\uE010', '\uE011', '\uE012', '\uE013', '\uE014'].all
      (fun c => isPrivateUse c && !t.contains c) = true := by decide +kernel
  have hfree : LeavesFree 5 t := leavesFree_of_all (by decide) hall
  exact ⟨by decide, hfree, by decide, by decide, split_and_unescape_eq_scan (by decide) hfree⟩

end EscapeCodec

end SeedChain
