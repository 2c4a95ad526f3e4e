import TemplateTokens.Proofs.Soundness
import TemplateTokens.Proofs.Utf8.Repair
import TemplateTokens.Token

/-!
# The texts of a token

A token has a text if its bytes are the bytes of one, and has that text only. The text shown for a
token is what repair leaves of its bytes, so it has the same ASCII bytes at the same places. The
markers and the line ends are ASCII: to a reader of the shown text the token has its kind and its
number of line ends.

Nothing is assumed of the bytes of a token. That the replacement is made for each maximal ill-formed
subpart, one character each, is stated by a relation between bytes and characters that does not cut
the bytes into segments (`Utf8.Repaired`), and there is one text that satisfies it.
-/

namespace TemplateTokens.Token

/-- Strings with the same ASCII bytes at the same places have the same kind. The kind depends on the
first two bytes, and the openers are ASCII. -/
theorem Kind.of_eq_of_sameAscii {left right : Bytes} (same : Utf8.SameAscii left right) :
    Kind.of left = Kind.of right := by
  have opener (marker : Bytes) (ascii : ∀ byte ∈ marker, byte < 0x80) :
      marker.isPrefixOf left = marker.isPrefixOf right := by
    rw [Bool.eq_iff_iff, List.isPrefixOf_iff_prefix, List.isPrefixOf_iff_prefix]
    exact same.prefix_iff ascii
  have output := opener Bytes.outputOpener (by simp [Bytes.openBrace])
  have tag := opener Bytes.tagOpener (by simp [Bytes.openBrace, Bytes.percent])
  rw [Kind.of, Kind.of, output, tag]

/-- The text shown for a token has the ASCII bytes of the token at their places. What is repaired
are runs of bytes above ASCII, and what they are replaced with is above ASCII too. -/
theorem sameAscii_shown (token : Token) :
    Utf8.SameAscii token.bytes (Utf8.ofText token.shown) :=
  (Utf8.repaired_iff.mpr rfl).sameAscii

/-- A token with a text is shown as that text. -/
theorem shown_eq_of_text? {token : Token} {text : String} (exact : token.text? = some text) :
    token.shown = text := by
  have bytes := Utf8.text?_eq_some_iff.mp exact
  apply Utf8.repaired_iff.mp
  rw [← bytes]
  exact Utf8.repaired_of_characters text.toList

/-- The texts of a token agree. It has a text exactly if its bytes are well formed throughout, the
text is the one that is stored in these bytes, and the token equals this text and no other. The text
shown is well formed, has the bytes of the token exactly if the token has a text, and is the one
text that is left when a replacement character takes the place of each maximal ill-formed subpart.
Its ASCII bytes are those of the token, in their order, and so are its line ends and its kind.

Proof: the segments of the bytes are characters exactly where characters stand, so they are all
characters exactly if the bytes are those of a text. Replacing the others leaves one text, and takes
away or adds no ASCII byte; kind, newlines and the ASCII bytes in their order depend on these
alone. -/
theorem texts_agree (token : Token) :
    ((∃ text, token.text? = some text) ↔ Encoding.utf8.IsSpelled token.bytes) ∧
    (∀ text, token.text? = some text ↔ text.toByteArray.data.toList = token.bytes) ∧
    (∀ text, token.isText text = true ↔ token.text? = some text) ∧
    Encoding.utf8.IsSpelled (Utf8.ofText token.shown) ∧
    (Utf8.ofText token.shown = token.bytes ↔ ∃ text, token.text? = some text) ∧
    (∀ text, token.shown = text ↔ Utf8.Repaired token.bytes text.toList) ∧
    (Utf8.ofText token.shown).filter Bytes.isAscii = token.bytes.filter Bytes.isAscii ∧
    (Utf8.ofText token.shown).newlineCount = token.newlineCount ∧
    Kind.of (Utf8.ofText token.shown) = token.kind := by
  have same := token.sameAscii_shown
  refine ⟨?_, ?_, ?_, ?_, ?_, ?_, same.filter_isAscii_eq.symm, (same.count_eq (by decide)).symm,
    (Kind.of_eq_of_sameAscii same).symm⟩
  · rw [← Encoding.sound_iff_isSpelled]
    simp only [text?, Utf8.text?_eq_some_iff]
    exact Utf8.firstIllFormed?_eq_none_iff_exists.symm
  · intro text
    rw [text?, Utf8.text?_eq_some_iff, Utf8.ofText_eq]
  · intro text
    rw [isText, beq_iff_eq, text?, Utf8.text?_eq_some_iff, eq_comm]
  · exact Encoding.sound_iff_isSpelled.mp (Utf8.firstIllFormed?_ofText token.shown)
  · constructor
    · intro shown
      exact ⟨token.shown, Utf8.text?_eq_some_iff.mpr shown⟩
    · rintro ⟨text, exact⟩
      rw [shown_eq_of_text? exact]
      exact Utf8.text?_eq_some_iff.mp exact
  · intro text
    exact Utf8.repaired_iff.symm

/-- Two of the three bytes of `€` in front of the end of an output: neither brace is lost. -/
example : (Token.mk [0x7b, 0x7b, 0xe2, 0x82, 0x7d, 0x7d]).shown = "\x7b\x7b\uFFFD\x7d\x7d" := by
  decide +kernel

end TemplateTokens.Token
