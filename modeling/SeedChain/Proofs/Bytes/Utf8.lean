import Mathlib.Tactic.Common
import SeedChain.Bytes.Utf8
/-!
# Reading UTF-8

The bytes of a character are read as this character, whatever follows (`headChar_ofChar`), and a
character that is read has the bytes that were taken (`eq_append_of_headChar`). So the bytes that are
decoded are those that some text is encoded as (`decode?_eq_some_iff`). The encoding is that of the
machine strings (`ofChar_eq_utf8EncodeChar`).
-/

namespace SeedChain.Bytes

variable {b second : UInt8} {bs : Bytes} {c : Char} {t : Text}

/-! ## The bytes of a character -/

theorem toNat_ranges (c : Char) : c.toNat < 0xD800 ∨ 0xE000 ≤ c.toNat ∧ c.toNat < 0x110000 := by
  have hvalid : c.toNat.isValidChar := c.valid
  unfold Nat.isValidChar at hvalid
  omega

theorem ofChar_one (h : c.toNat < 0x80) : ofChar c = [UInt8.ofNat c.toNat] := by
  simp only [ofChar]
  rw [if_pos h]

theorem ofChar_two (hmin : 0x80 ≤ c.toNat) (hmax : c.toNat < 0x800) :
    ofChar c = [UInt8.ofNat (0xC0 + c.toNat / 0x40), UInt8.ofNat (0x80 + c.toNat % 0x40)] := by
  simp only [ofChar]
  rw [if_neg (by omega), if_pos hmax]

theorem ofChar_three (hmin : 0x800 ≤ c.toNat) (hmax : c.toNat < 0x10000) :
    ofChar c = [UInt8.ofNat (0xE0 + c.toNat / 0x1000), UInt8.ofNat (0x80 + c.toNat / 0x40 % 0x40),
      UInt8.ofNat (0x80 + c.toNat % 0x40)] := by
  simp only [ofChar]
  rw [if_neg (by omega), if_neg (by omega), if_pos hmax]

theorem ofChar_four (hmin : 0x10000 ≤ c.toNat) :
    ofChar c = [UInt8.ofNat (0xF0 + c.toNat / 0x40000), UInt8.ofNat (0x80 + c.toNat / 0x1000 % 0x40),
      UInt8.ofNat (0x80 + c.toNat / 0x40 % 0x40), UInt8.ofNat (0x80 + c.toNat % 0x40)] := by
  simp only [ofChar]
  rw [if_neg (by omega), if_neg (by omega), if_neg (by omega)]

/-- The bytes of a character are those that the standard library gives it. -/
theorem ofChar_eq_utf8EncodeChar (c : Char) : ofChar c = String.utf8EncodeChar c := by
  have hvalue : c.val.toNat = c.toNat := rfl
  have hranges := toNat_ranges c
  simp only [String.utf8EncodeChar, hvalue]
  by_cases hone : c.toNat < 0x80
  · rw [ofChar_one hone, if_pos (by omega)]
  · rw [if_neg (by omega)]
    by_cases htwo : c.toNat < 0x800
    · rw [ofChar_two (by omega) htwo, if_pos (by omega),
        show c.toNat / 64 % 32 + 192 = 0xC0 + c.toNat / 0x40 by omega, Nat.add_comm (_ % 64)]
    · rw [if_neg (by omega)]
      by_cases hthree : c.toNat < 0x10000
      · rw [ofChar_three (by omega) hthree, if_pos (by omega),
          show c.toNat / 4096 % 16 + 224 = 0xE0 + c.toNat / 0x1000 by omega, Nat.add_comm (_ % 64),
          Nat.add_comm (_ % 64)]
      · rw [ofChar_four (by omega), if_neg (by omega),
          show c.toNat / 262144 % 8 + 240 = 0xF0 + c.toNat / 0x40000 by omega, Nat.add_comm (_ % 64),
          Nat.add_comm (_ % 64), Nat.add_comm (_ % 64)]

/-! ## The character at the head -/

/-- A second byte that can stand behind a lead byte. -/
structure Follows (lead second : Nat) : Prop where
  leads : 0xC2 ≤ lead ∧ lead ≤ 0xF4
  continues : 0x80 ≤ second ∧ second ≤ 0xBF
  /-- No character is written with more bytes than it needs. -/
  shortest : (lead = 0xE0 → 0xA0 ≤ second) ∧ (lead = 0xF0 → 0x90 ≤ second)
  /-- Surrogates and values behind the last code point are no characters. -/
  inRange : (lead = 0xED → second ≤ 0x9F) ∧ (lead = 0xF4 → second ≤ 0x8F)

theorem follows_iff {lead second : Nat} :
    Follows lead second ↔
      ∃ low high, secondRange lead = some (low, high) ∧ low ≤ second ∧ second ≤ high := by
  constructor
  · rintro ⟨hlead, hsecond, hshortest, hinRange⟩
    unfold secondRange
    split_ifs
    iterate 7 exact ⟨_, _, rfl, by omega⟩
    omega
  · rintro ⟨low, high, hrange, hsecond⟩
    unfold secondRange at hrange
    split_ifs at hrange
    all_goals
      obtain ⟨rfl, rfl⟩ := Prod.mk.inj (Option.some.inj hrange)
      constructor <;> omega

/-- Behind a lead byte above the ASCII range stand the bytes that the lead byte calls for. -/
theorem headChar_iff_continuation {taken : Nat} (hb : 0x80 ≤ b.toNat) :
    headChar b bs = (some c, taken) ↔ ∃ second rest code, bs = second :: rest ∧
      Follows b.toNat second.toNat ∧ Char.ofNat code = c ∧
      continuation ((leadParts b.toNat).1 - 1) 1
        (0x40 * (leadParts b.toNat).2 + second.toNat % 0x40) rest = (some code, taken) := by
  simp only [headChar]
  rw [if_neg (by omega)]
  constructor
  · intro h
    split at h
    · rename_i low high second rest hrange
      split at h
      · rename_i hfits
        obtain ⟨hchar, htaken⟩ := Prod.mk.inj h
        obtain ⟨code, hcode, hc⟩ := Option.map_eq_some_iff.1 hchar
        exact ⟨second, rest, code, rfl, follows_iff.2 ⟨low, high, hrange, hfits⟩, hc,
          Prod.ext hcode htaken⟩
      · cases h
    · cases h
  · rintro ⟨second, rest, code, rfl, hsecond, hc, hcontinuation⟩
    obtain ⟨low, high, hrange, hfits⟩ := follows_iff.1 hsecond
    simp only [hrange]
    rw [if_pos hfits, hcontinuation, Option.map_some, hc]

theorem continuation_succ_iff {missing taken value code after : Nat} :
    continuation (missing + 1) taken value bs = (some code, after) ↔
      ∃ next rest, bs = next :: rest ∧ (0x80 ≤ next.toNat ∧ next.toNat ≤ 0xBF) ∧
        continuation missing (taken + 1) (0x40 * value + next.toNat % 0x40) rest = (some code, after) := by
  cases bs with
  | nil => simp [continuation]
  | cons next rest =>
    simp only [continuation]
    split
    · rename_i hnext
      constructor
      · intro h
        exact ⟨next, rest, rfl, hnext, h⟩
      · rintro ⟨_, _, heq, -, h⟩
        obtain ⟨rfl, rfl⟩ := List.cons.inj heq
        exact h
    · rename_i hnext
      constructor
      · intro h
        cases h
      · rintro ⟨_, _, heq, hcontinues, -⟩
        obtain ⟨rfl, rfl⟩ := List.cons.inj heq
        exact absurd hcontinues hnext

/-! ### Two, three and four bytes -/

theorem toNat_ofNat (code : Nat) (h : code < 0xD800 ∨ 0xE000 ≤ code ∧ code < 0x110000) :
    (Char.ofNat code).toNat = code := by
  have hvalid : code.isValidChar := by
    unfold Nat.isValidChar
    omega
  rw [Char.ofNat, dif_pos hvalid]
  rfl

theorem toNat_byte {n : Nat} (h : n < 0x100) : (UInt8.ofNat n).toNat = n :=
  UInt8.toNat_ofNat_of_lt' h

theorem ofNat_eq {n : Nat} (h : n = b.toNat) : UInt8.ofNat n = b := by
  rw [h, UInt8.ofNat_toNat]

/-- The code point that two bytes stand for. -/
def codeTwo (b second : UInt8) : Nat := 0x40 * (b.toNat % 0x20) + second.toNat % 0x40

def codeThree (b second third : UInt8) : Nat :=
  0x40 * (0x40 * (b.toNat % 0x10) + second.toNat % 0x40) + third.toNat % 0x40

def codeFour (b second third fourth : UInt8) : Nat :=
  0x40 * (0x40 * (0x40 * (b.toNat % 8) + second.toNat % 0x40) + third.toNat % 0x40) +
    fourth.toNat % 0x40

section Widths

variable {third fourth : UInt8} (h : Follows b.toNat second.toNat)
  (hthird : 0x80 ≤ third.toNat ∧ third.toNat ≤ 0xBF)
  (hfourth : 0x80 ≤ fourth.toNat ∧ fourth.toNat ≤ 0xBF)
include h

theorem headChar_two (hb : b.toNat < 0xE0) (rest : Bytes) :
    headChar b (second :: rest) = (some (Char.ofNat (codeTwo b second)), 1) := by
  have hlead := h.leads
  refine (headChar_iff_continuation (by omega)).2 ⟨second, rest, codeTwo b second, rfl, h, rfl, ?_⟩
  rw [leadParts, if_pos hb]
  rfl

theorem ofChar_codeTwo (hb : b.toNat < 0xE0) : ofChar (Char.ofNat (codeTwo b second)) = [b, second] := by
  obtain ⟨hlead, hcontinues, -, -⟩ := h
  have hvalue := toNat_ofNat (codeTwo b second) (by unfold codeTwo; omega)
  unfold codeTwo at *
  rw [ofChar_two (by omega) (by omega), hvalue, ofNat_eq (b := b) (by omega),
    ofNat_eq (b := second) (by omega)]

include hthird

theorem headChar_three (hmin : 0xE0 ≤ b.toNat) (hmax : b.toNat < 0xF0) (rest : Bytes) :
    headChar b (second :: third :: rest) = (some (Char.ofNat (codeThree b second third)), 2) := by
  refine (headChar_iff_continuation (by omega)).2
    ⟨second, third :: rest, codeThree b second third, rfl, h, rfl, ?_⟩
  rw [leadParts, if_neg (by omega), if_pos hmax]
  exact continuation_succ_iff.2 ⟨third, rest, rfl, hthird, rfl⟩

theorem ofChar_codeThree (hmin : 0xE0 ≤ b.toNat) (hmax : b.toNat < 0xF0) :
    ofChar (Char.ofNat (codeThree b second third)) = [b, second, third] := by
  obtain ⟨-, hcontinues, hshortest, hinRange⟩ := h
  have hvalue := toNat_ofNat (codeThree b second third) (by unfold codeThree; omega)
  unfold codeThree at *
  rw [ofChar_three (by omega) (by omega), hvalue, ofNat_eq (b := b) (by omega),
    ofNat_eq (b := second) (by omega), ofNat_eq (b := third) (by omega)]

include hfourth

theorem headChar_four (hmin : 0xF0 ≤ b.toNat) (rest : Bytes) :
    headChar b (second :: third :: fourth :: rest) =
      (some (Char.ofNat (codeFour b second third fourth)), 3) := by
  refine (headChar_iff_continuation (by omega)).2
    ⟨second, third :: fourth :: rest, codeFour b second third fourth, rfl, h, rfl, ?_⟩
  rw [leadParts, if_neg (by omega), if_neg (by omega)]
  refine continuation_succ_iff.2 ⟨third, fourth :: rest, rfl, hthird, ?_⟩
  exact continuation_succ_iff.2 ⟨fourth, rest, rfl, hfourth, rfl⟩

theorem ofChar_codeFour (hmin : 0xF0 ≤ b.toNat) :
    ofChar (Char.ofNat (codeFour b second third fourth)) = [b, second, third, fourth] := by
  obtain ⟨hlead, hcontinues, hshortest, hinRange⟩ := h
  have hvalue := toNat_ofNat (codeFour b second third fourth) (by unfold codeFour; omega)
  unfold codeFour at *
  rw [ofChar_four (by omega), hvalue, ofNat_eq (b := b) (by omega),
    ofNat_eq (b := second) (by omega), ofNat_eq (b := third) (by omega),
    ofNat_eq (b := fourth) (by omega)]

end Widths

/-! ### Any number of bytes -/

/-- The bytes of a character are read as this character, whatever stands behind them. -/
theorem headChar_ofChar (c : Char) (rest : Bytes) :
    ∃ b bs, ofChar c = b :: bs ∧ headChar b (bs ++ rest) = (some c, bs.length) := by
  have hranges := toNat_ranges c
  have hlast := toNat_byte (n := 0x80 + c.toNat % 0x40) (by omega)
  have hthird := toNat_byte (n := 0x80 + c.toNat / 0x40 % 0x40) (by omega)
  by_cases hone : c.toNat < 0x80
  · refine ⟨_, _, ofChar_one hone, ?_⟩
    simp only [headChar, toNat_byte (n := c.toNat) (by omega)]
    rw [if_pos hone, Char.ofNat_toNat]
    rfl
  by_cases htwo : c.toNat < 0x800
  · refine ⟨_, _, ofChar_two (by omega) htwo, ?_⟩
    have hb := toNat_byte (n := 0xC0 + c.toNat / 0x40) (by omega)
    refine (headChar_two ?_ (by omega) rest).trans ?_
    · rw [hb, hlast]
      constructor <;> omega
    · have hcode : codeTwo (UInt8.ofNat (0xC0 + c.toNat / 0x40))
          (UInt8.ofNat (0x80 + c.toNat % 0x40)) = c.toNat := by
        rw [codeTwo, hb, hlast]
        omega
      rw [hcode, Char.ofNat_toNat]
      rfl
  by_cases hthree : c.toNat < 0x10000
  · refine ⟨_, _, ofChar_three (by omega) hthree, ?_⟩
    have hb := toNat_byte (n := 0xE0 + c.toNat / 0x1000) (by omega)
    refine (headChar_three ?_ (by omega) (by omega) (by omega) rest).trans ?_
    · rw [hb, hthird]
      constructor <;> omega
    · have hcode : codeThree (UInt8.ofNat (0xE0 + c.toNat / 0x1000))
          (UInt8.ofNat (0x80 + c.toNat / 0x40 % 0x40)) (UInt8.ofNat (0x80 + c.toNat % 0x40)) =
          c.toNat := by
        rw [codeThree, hb, hthird, hlast]
        omega
      rw [hcode, Char.ofNat_toNat]
      rfl
  · refine ⟨_, _, ofChar_four (by omega), ?_⟩
    have hb := toNat_byte (n := 0xF0 + c.toNat / 0x40000) (by omega)
    have hsecond := toNat_byte (n := 0x80 + c.toNat / 0x1000 % 0x40) (by omega)
    refine (headChar_four ?_ (by omega) (by omega) (by omega) rest).trans ?_
    · rw [hb, hsecond]
      constructor <;> omega
    · have hcode : codeFour (UInt8.ofNat (0xF0 + c.toNat / 0x40000))
          (UInt8.ofNat (0x80 + c.toNat / 0x1000 % 0x40)) (UInt8.ofNat (0x80 + c.toNat / 0x40 % 0x40))
          (UInt8.ofNat (0x80 + c.toNat % 0x40)) = c.toNat := by
        rw [codeFour, hb, hsecond, hthird, hlast]
        omega
      rw [hcode, Char.ofNat_toNat]
      rfl

/-- A character that is read at the head has the bytes that were taken. -/
theorem eq_append_of_headChar {taken : Nat} (h : headChar b bs = (some c, taken)) :
    b :: bs = ofChar c ++ bs.drop taken := by
  by_cases hb : b.toNat < 0x80
  · simp only [headChar] at h
    rw [if_pos hb] at h
    obtain ⟨hc, rfl⟩ := Prod.mk.inj h
    obtain rfl := Option.some.inj hc
    have hvalue := toNat_ofNat b.toNat (by omega)
    rw [ofChar_one (by omega), hvalue, UInt8.ofNat_toNat]
    rfl
  obtain ⟨second, rest, code, rfl, hsecond, -, hread⟩ := (headChar_iff_continuation (by omega)).1 h
  by_cases htwo : b.toNat < 0xE0
  · obtain ⟨hc, rfl⟩ := Prod.mk.inj ((headChar_two hsecond htwo rest).symm.trans h)
    obtain rfl := Option.some.inj hc
    rw [ofChar_codeTwo hsecond htwo]
    rfl
  by_cases hthree : b.toNat < 0xF0
  · rw [leadParts, if_neg htwo, if_pos hthree] at hread
    obtain ⟨third, rest, rfl, hthird, -⟩ := continuation_succ_iff.1 hread
    obtain ⟨hc, rfl⟩ := Prod.mk.inj
      ((headChar_three hsecond hthird (by omega) hthree rest).symm.trans h)
    obtain rfl := Option.some.inj hc
    rw [ofChar_codeThree hsecond hthird (by omega) hthree]
    rfl
  · rw [leadParts, if_neg htwo, if_neg hthree] at hread
    obtain ⟨third, rest, rfl, hthird, hread⟩ := continuation_succ_iff.1 hread
    obtain ⟨fourth, rest, rfl, hfourth, -⟩ := continuation_succ_iff.1 hread
    obtain ⟨hc, rfl⟩ := Prod.mk.inj
      ((headChar_four hsecond hthird hfourth (by omega) rest).symm.trans h)
    obtain rfl := Option.some.inj hc
    rw [ofChar_codeFour hsecond hthird hfourth (by omega)]
    rfl

/-! ## Texts -/

theorem decodeParts_ofText (t : Text) : decodeParts (ofText t) = t.map some := by
  induction t with
  | nil => simp [ofText, decodeParts]
  | cons c t ih =>
    obtain ⟨b, bs, hbytes, hhead⟩ := headChar_ofChar c (ofText t)
    rw [ofText, List.flatMap_cons, hbytes, List.cons_append, decodeParts]
    change (headChar b (bs ++ ofText t)).1 :: decodeParts
      ((bs ++ ofText t).drop (headChar b (bs ++ ofText t)).2) = _
    rw [hhead, List.drop_left, ih, List.map_cons]

theorem ofText_of_decodeParts (h : decodeParts bs = t.map some) : ofText t = bs := by
  -- a character takes one byte or more, so the rest is shorter
  induction hlength : bs.length using Nat.strongRecOn generalizing bs t with
  | _ n ih =>
    cases bs with
    | nil =>
      rw [decodeParts] at h
      obtain rfl := List.map_eq_nil_iff.1 h.symm
      rfl
    | cons b bs =>
      rw [decodeParts] at h
      obtain ⟨c, rest, rfl, hc, hrest⟩ := List.map_eq_cons_iff.1 h.symm
      rw [List.length_cons] at hlength
      have hdrop : (bs.drop (headChar b bs).2).length < n := by
        rw [List.length_drop]
        omega
      rw [ofText, List.flatMap_cons, ← ofText, ih _ hdrop hrest.symm rfl]
      exact (eq_append_of_headChar (Prod.ext hc.symm rfl)).symm

theorem all_decoded_iff {α : Type} {xs : List (Option α)} {ys : List α} :
    xs.mapM id = some ys ↔ xs = ys.map some := by
  induction xs generalizing ys with
  | nil =>
    rw [List.mapM_nil, Option.pure_def, Option.some.injEq, eq_comm, eq_comm (a := []), List.map_eq_nil_iff]
  | cons x xs ih =>
    simp only [List.mapM_cons, id_eq, Option.bind_eq_bind, Option.bind_eq_some_iff, ih, Option.pure_def,
      Option.some.injEq]
    constructor
    · rintro ⟨y, rfl, zs, rfl, rfl⟩
      rfl
    · intro h
      obtain ⟨y, zs, rfl, rfl, rfl⟩ := List.map_eq_cons_iff.1 h.symm
      exact ⟨y, rfl, zs, rfl, rfl⟩

/-- The bytes that are decoded are the encodings of texts. -/
theorem decode?_eq_some_iff : decode? bs = some t ↔ ofText t = bs := by
  rw [decode?, all_decoded_iff]
  constructor
  · exact ofText_of_decodeParts
  · rintro rfl
    exact decodeParts_ofText t

/-! ## Where characters begin -/

/-- A byte that continues a character. -/
def Continues (b : UInt8) : Prop := 0x80 ≤ b.toNat ∧ b.toNat < 0xC0

/-- A character begins with a byte that continues none, and all others continue it. -/
theorem exists_ofChar_eq (c : Char) :
    ∃ lead rest, ofChar c = lead :: rest ∧ ¬ Continues lead ∧ ∀ b ∈ rest, Continues b := by
  have hranges := toNat_ranges c
  have hlast : Continues (UInt8.ofNat (0x80 + c.toNat % 0x40)) := by
    rw [Continues, toNat_byte (by omega)]
    omega
  have hthird : Continues (UInt8.ofNat (0x80 + c.toNat / 0x40 % 0x40)) := by
    rw [Continues, toNat_byte (by omega)]
    omega
  have hsecond : Continues (UInt8.ofNat (0x80 + c.toNat / 0x1000 % 0x40)) := by
    rw [Continues, toNat_byte (by omega)]
    omega
  by_cases hone : c.toNat < 0x80
  · refine ⟨_, _, ofChar_one hone, ?_, nofun⟩
    rw [Continues, toNat_byte (by omega)]
    omega
  by_cases htwo : c.toNat < 0x800
  · refine ⟨_, _, ofChar_two (by omega) htwo, ?_, ?_⟩
    · rw [Continues, toNat_byte (by omega)]
      omega
    · simp only [List.forall_mem_cons]
      exact ⟨hlast, nofun⟩
  by_cases hthree : c.toNat < 0x10000
  · refine ⟨_, _, ofChar_three (by omega) hthree, ?_, ?_⟩
    · rw [Continues, toNat_byte (by omega)]
      omega
    · simp only [List.forall_mem_cons]
      exact ⟨hthird, hlast, nofun⟩
  · refine ⟨_, _, ofChar_four (by omega), ?_, ?_⟩
    · rw [Continues, toNat_byte (by omega)]
      omega
    · simp only [List.forall_mem_cons]
      exact ⟨hsecond, hthird, hlast, nofun⟩

@[simp]
theorem ofText_nil : ofText [] = [] := rfl

@[simp]
theorem ofText_cons (c : Char) (t : Text) : ofText (c :: t) = ofChar c ++ ofText t :=
  List.flatMap_cons

@[simp]
theorem ofText_append (s t : Text) : ofText (s ++ t) = ofText s ++ ofText t :=
  List.flatMap_append

/-- The bytes at the head say which character they belong to. -/
theorem ofChar_inj {c d : Char} {bs cs : Bytes} (h : ofChar c ++ bs = ofChar d ++ cs) :
    c = d ∧ bs = cs := by
  obtain ⟨b, bc, hbc, hc⟩ := headChar_ofChar c bs
  obtain ⟨b', bd, hbd, hd⟩ := headChar_ofChar d cs
  have hheads := h
  rw [hbc, hbd, List.cons_append, List.cons_append] at hheads
  obtain ⟨rfl, hrest⟩ := List.cons.inj hheads
  rw [hrest, hd] at hc
  obtain rfl := Option.some.inj (Prod.mk.inj hc).1
  exact ⟨rfl, List.append_cancel_left h⟩

/-- A text whose bytes begin with those of a marker begins with the marker. -/
theorem exists_append_of_ofText {marker : Text} (h : ofText t = ofText marker ++ bs) :
    ∃ after, t = marker ++ after ∧ ofText after = bs := by
  induction marker generalizing t with
  | nil => exact ⟨t, rfl, h⟩
  | cons d marker ih =>
    cases t with
    | nil =>
      obtain ⟨lead, rest, hd, -⟩ := exists_ofChar_eq d
      simp [hd] at h
    | cons c t =>
      rw [ofText_cons, ofText_cons, List.append_assoc] at h
      obtain ⟨rfl, hbehind⟩ := ofChar_inj h
      obtain ⟨after, rfl, rfl⟩ := ih hbehind
      exact ⟨after, rfl, rfl⟩

/-- Where the bytes of a marker stand in the bytes of a text, the marker stands in the text: no place
inside a character is taken for its beginning. -/
theorem exists_cut_of_ofText {marker : Text} (hne : marker ≠ []) {p s : Bytes}
    (h : ofText t = p ++ ofText marker ++ s) :
    ∃ before after, t = before ++ marker ++ after ∧ ofText before = p ∧ ofText after = s := by
  rw [List.append_assoc] at h
  induction t generalizing p with
  | nil =>
    obtain ⟨d, marker, rfl⟩ := List.exists_cons_of_ne_nil hne
    obtain ⟨lead, rest, hd, -⟩ := exists_ofChar_eq d
    simp [hd] at h
  | cons c t ih =>
    rcases p with _ | ⟨b, p⟩
    · obtain ⟨after, hafter, rfl⟩ := exists_append_of_ofText h
      exact ⟨[], after, hafter, rfl, rfl⟩
    · obtain ⟨lead, rest, hc, -, hrest⟩ := exists_ofChar_eq c
      rw [ofText_cons, hc, List.cons_append, List.cons_append] at h
      obtain ⟨rfl, hcut⟩ := List.cons.inj h
      rcases List.append_eq_append_iff.1 hcut with ⟨inner, rfl, hbehind⟩ | ⟨inner, rfl, hbehind⟩
      · obtain ⟨before, after, rfl, rfl, rfl⟩ := ih hbehind
        refine ⟨c :: before, after, rfl, ?_, rfl⟩
        rw [ofText_cons, hc, List.cons_append]
      · -- the marker cannot begin with a byte of this character
        obtain ⟨d, marker, rfl⟩ := List.exists_cons_of_ne_nil hne
        obtain ⟨first, others, hd, hfirst, -⟩ := exists_ofChar_eq d
        rcases inner with _ | ⟨first', inner⟩
        · rw [List.append_nil] at hc
          rw [List.nil_append] at hbehind
          obtain ⟨before, after, rfl, hbefore, rfl⟩ := ih (p := []) hbehind.symm
          refine ⟨c :: before, after, rfl, ?_, rfl⟩
          rw [ofText_cons, hc, hbefore, List.append_nil]
        · rw [ofText_cons, hd, List.cons_append, List.cons_append, List.cons_append] at hbehind
          obtain ⟨rfl, -⟩ := List.cons.inj hbehind
          exact absurd (hrest first (by simp)) hfirst

end SeedChain.Bytes
