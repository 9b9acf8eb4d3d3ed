import SeedChain.Operation.Table
import SeedChain.Proofs.Bytes.Utf8
import SeedChain.Proofs.Properties.Lines
import SeedChain.Value.Read
/-!
# Bytes and their texts

Behind its mark, what the operations `base64` and `hex` write is read as the bytes it was written for
(`read_base64`, `read_hex`). The text of bytes is base 64 behind its mark if they are no UTF-8, else the
text that they encode; this one is taken for an encoding if it begins with a mark, and then stands for
fewer bytes (`length_of_read`).

Main result: `written_bytes_read_back`.
-/

namespace SeedChain.Bytes

variable {bytes : Bytes} {t encoded : Text}

/-! ## Marks -/

/-- A text that is read as an encoding of bytes. -/
def Marked (t : Text) : Prop := base64Mark <+: t.trim ∨ hexMark <+: t.trim

theorem read_of_base64Mark (h : t.trim = base64Mark ++ encoded) :
    read t = (ofBase64? encoded.trim).elim (.error .invalidBase64) .ok := by
  have hmark : base64Mark.isPrefixOf? t.trim = some encoded :=
    List.isPrefixOf?_eq_some_iff_append_eq.2 h.symm
  simp only [read, hmark]

theorem read_of_hexMark (h : t.trim = hexMark ++ encoded) :
    read t = (ofHex? encoded.trim).elim (.error .invalidHex) .ok := by
  have hother : base64Mark.isPrefixOf? t.trim = none := by
    rw [h]
    rfl
  have hmark : hexMark.isPrefixOf? t.trim = some encoded :=
    List.isPrefixOf?_eq_some_iff_append_eq.2 h.symm
  simp only [read, hother, hmark]

theorem read_of_not_marked (h : ¬ Marked t) : read t = .ok (ofText t) := by
  obtain ⟨hbase64, hhex⟩ := not_or.1 h
  simp only [read, Text.isPrefixOf?_eq_none_iff.2 hbase64, Text.isPrefixOf?_eq_none_iff.2 hhex]

/-! ## Reading what is written -/

theorem trim_behind_mark {mark digits : Text} (hmark : mark.any Text.isWhite = false)
    (hdigits : ∀ c ∈ digits, Text.isWhite c = false) : Text.trim (mark ++ digits) = mark ++ digits := by
  rw [List.any_eq_false] at hmark
  refine Text.trim_eq_self (List.forall_mem_append.2 ⟨?_, hdigits⟩)
  intro c hc
  exact Bool.of_not_eq_true (hmark c hc)

theorem read_base64 (bytes : Bytes) : read (base64Mark ++ toBase64 bytes) = .ok bytes := by
  have hdigits := not_white_of_mem_toBase64 bytes
  rw [read_of_base64Mark (trim_behind_mark rfl hdigits), Text.trim_eq_self hdigits, ofBase64?_toBase64]
  rfl

theorem read_hex (bytes : Bytes) : read (hexMark ++ toHex bytes) = .ok bytes := by
  have hdigits := not_white_of_mem_toHex bytes
  rw [read_of_hexMark (trim_behind_mark rfl hdigits), Text.trim_eq_self hdigits, ofHex?_toHex]
  rfl

/-! ## Texts that are taken for encodings -/

theorem length_le_ofText (t : Text) : t.length ≤ (ofText t).length := by
  induction t with
  | nil => exact Nat.le_refl 0
  | cons c t ih =>
    obtain ⟨b, bs, hbytes, -⟩ := headChar_ofChar c []
    rw [ofText, List.flatMap_cons, hbytes, List.length_append, List.length_cons, List.length_cons, ← ofText]
    omega

theorem eq_some_of_elim {reason : Reason} {decoded : Option Bytes}
    (h : decoded.elim (.error reason) .ok = Except.ok bytes) : decoded = some bytes := by
  cases decoded with
  | none => cases h
  | some bs => rw [← Except.ok.inj h]

/-- An encoding stands for fewer bytes than it takes itself. -/
theorem length_of_read (hmarked : Marked t) (h : read t = .ok bytes) :
    bytes.length < (ofText t).length := by
  have htrim := Text.length_trim_le t
  have htext := length_le_ofText t
  rcases hmarked with ⟨encoded, hencoded⟩ | ⟨encoded, hencoded⟩
  · rw [read_of_base64Mark hencoded.symm] at h
    have hbytes := length_of_ofBase64? (eq_some_of_elim h)
    have hdigits := Text.length_trim_le encoded
    rw [← hencoded, List.length_append, show base64Mark.length = 7 from rfl] at htrim
    omega
  · rw [read_of_hexMark hencoded.symm] at h
    have hbytes := length_of_ofHex? (eq_some_of_elim h)
    have hdigits := Text.length_trim_le encoded
    rw [← hencoded, List.length_append, show hexMark.length = 4 from rfl] at htrim
    omega

/-- The text of bytes is read back, unless it is the text that they encode and begins with a mark. -/
theorem read_text_iff (bytes : Bytes) :
    read (text bytes) = .ok bytes ↔ ¬ ∃ t, ofText t = bytes ∧ Marked t := by
  cases hdecode : decode? bytes with
  | none =>
    have htext : text bytes = base64Mark ++ toBase64 bytes := by rw [text, hdecode]; rfl
    rw [htext, iff_true_left (read_base64 bytes)]
    rintro ⟨t, ht, -⟩
    rw [decode?_eq_some_iff.2 ht] at hdecode
    cases hdecode
  | some t =>
    have htext : text bytes = t := by rw [text, hdecode]; rfl
    have hbytes := decode?_eq_some_iff.1 hdecode
    rw [htext]
    constructor
    · rintro hread ⟨s, hs, hmarked⟩
      obtain rfl : t = s := Option.some.inj (hdecode.symm.trans (decode?_eq_some_iff.2 hs))
      have hlength := length_of_read hmarked hread
      rw [hbytes] at hlength
      exact Nat.lt_irrefl _ hlength
    · intro h
      rw [read_of_not_marked fun hmarked => h ⟨t, hbytes, hmarked⟩, hbytes]

/-! ## The operations -/

theorem value_read_iff (env : Environment) (t : Text) (bytes : Bytes) :
    Value.read env .binary t = .ok (.binary bytes) ↔ read t = .ok bytes := by
  simp only [Value.read]
  cases read t with
  | error reason => exact ⟨nofun, nofun⟩
  | ok bs =>
    change Except.ok (Value.binary bs) = .ok (.binary bytes) ↔ _
    rw [Except.ok.injEq, Except.ok.injEq, Value.binary.injEq]

/-- What `base64` and `hex` write of bytes is read behind its mark as these bytes, and so is the text of
the bytes, unless they are the UTF-8 of a text that begins with a mark, blanks aside. -/
theorem written_bytes_read_back (env : Environment) (bytes : Bytes) (store : Store) :
    (∃ t, (Value.binary bytes).invoke env.delimiter "base64".toList [] store = (goOn (.text t), store) ∧
      Value.read env .binary ("base64:".toList ++ t) = .ok (.binary bytes)) ∧
    (∃ t, (Value.binary bytes).invoke env.delimiter "hex".toList [] store = (goOn (.text t), store) ∧
      Value.read env .binary ("hex:".toList ++ t) = .ok (.binary bytes)) ∧
    ∃ t, (Value.binary bytes).text? = some t ∧
      (Value.read env .binary t = .ok (.binary bytes) ↔
        ¬ ∃ s, ofText s = bytes ∧ ("base64:".toList <+: s.trim ∨ "hex:".toList <+: s.trim)) := by
  refine ⟨⟨toBase64 bytes, rfl, ?_⟩, ⟨toHex bytes, rfl, ?_⟩, text bytes, rfl, ?_⟩
  · exact (value_read_iff env _ bytes).2 (read_base64 bytes)
  · exact (value_read_iff env _ bytes).2 (read_hex bytes)
  · exact (value_read_iff env _ bytes).trans (read_text_iff bytes)

end SeedChain.Bytes
