import JniLink.Proofs.Descriptor.Walk
import JniLink.Proofs.Symbol.Walk

/-!
# No reading leaves its text

Symbols and descriptors come from outside and may be any text. They are read by byte positions, some
of which are reached by a step over bytes that nothing has looked at. Here is what all of these
readings share: they look up no byte that is not there, and they cut out no piece that begins or
ends inside a character.

For the search of the marker and for the escapes that means that the walk ends with the reader's own
answer. For descriptors the positions have a bound as well, and a type that was read moves them
forward.
-/

namespace JniLink

open JniLink.Text
open Utf8 (encode)

/-- Reading by positions stays within the text, whatever the text is. The marker of a symbol stands
between characters. The walks over a symbol and over its parts end as the readers do, which a
broken one would not. A walk over a type, from any position up to the one behind the end, breaks
nowhere and reaches nothing above that position. A type that it answers ends behind its beginning,
and so as many rounds as there are bytes are enough for all the parameters of a method. -/
theorem walks_within_bounds (text : String) :
    (∀ i, Symbol.argsMarker? (encode text.toList) = some i →
      i + 2 ≤ text.utf8ByteSize ∧ (⟨i⟩ : String.Pos.Raw).IsValid text ∧
        (⟨i + 2⟩ : String.Pos.Raw).IsValid text) ∧
    (Symbol.markerWalk (encode text.toList) 0 : Walk SymbolError (Option Nat)).outcome =
      some (.ok (Symbol.argsMarker? (encode text.toList))) ∧
    (∀ e : SymbolError, (Symbol.partWalk e text.toList).Yields e
      (Symbol.readPart? (encode text.toList))) ∧
    (Symbol.walk text).outcome = some (Symbol.ofText text) ∧
    (∀ start ≤ text.utf8ByteSize + 1,
      (JvmType.walk text.toList start).IsSafe (text.utf8ByteSize + 1)) ∧
    (∀ start ty next, (JvmType.walk text.toList start).outcome = some (.ok (ty, next)) →
      start < next ∧ next ≤ text.utf8ByteSize) ∧
    (∀ start ≤ text.utf8ByteSize, ∀ rounds, text.utf8ByteSize < start + rounds →
      (Signature.paramsWalk text.toList rounds start).IsSafe (text.utf8ByteSize + 1)) ∧
    ((JvmType.lastWalk text.toList 0).IsSafe (text.utf8ByteSize + 1) ∧
      (JvmType.lastWalk text.toList 0).outcome.map (Except.mapError (⟨·, text⟩)) =
        some (JvmType.ofDescriptor text)) ∧
    ((Signature.walk text.toList).IsSafe (text.utf8ByteSize + 1) ∧
      (Signature.walk text.toList).outcome.map (Except.mapError (⟨·, text⟩)) =
        some (Signature.ofDescriptor text)) := by
  have hsize := Utf8.length_encode_toList text
  have hlimit : (encode text.toList).length ≤ text.utf8ByteSize + 1 := by omega
  refine ⟨fun i hi => ?_, ?_, fun e => Symbol.yields_partWalk e text.toList,
    Symbol.outcome_walk text, fun start hstart => JvmType.isSafe_walk hstart hlimit,
    fun start ty next hwalk => ?_, fun start hstart rounds hrounds => ?_, ⟨?_, ?_⟩, ?_, ?_⟩
  · obtain ⟨hlength, hfirst, hsecond⟩ := Symbol.isBoundary_of_argsMarker? hi
    rw [hsize] at hlength
    exact ⟨hlength, isBoundary_iff_isValid.mp hfirst, isBoundary_iff_isValid.mp hsecond⟩
  · have hmarker := Symbol.outcome_markerWalk SymbolError (encode text.toList) 0
    rwa [List.drop_zero] at hmarker
  · have hnext := JvmType.lt_of_outcome_walk hwalk
    rwa [hsize] at hnext
  · exact Signature.isSafe_paramsWalk (by omega) (by omega) hlimit
  · exact JvmType.isSafe_lastWalk (by omega) hlimit
  · exact JvmType.outcome_lastWalk_zero text
  · exact Signature.isSafe_walk hlimit
  · exact Signature.outcome_walk_toList text

/-- The step over the escape ends inside `😀`, and the marker is found behind it. -/
theorem walks_within_bounds_inside_character :
    let text := "[Lé;_0é😀__é"
    (Symbol.argsMarker? (encode text.toList) = some 13 ∧ 13 + 2 ≤ text.utf8ByteSize ∧
      (⟨13⟩ : String.Pos.Raw).IsValid text ∧ (⟨13 + 2⟩ : String.Pos.Raw).IsValid text) ∧
    ((JvmType.walk text.toList 0).outcome = some (.ok (.array (.object "é"), 5)) ∧
      0 < 5 ∧ 5 ≤ text.utf8ByteSize) ∧
    (text.utf8ByteSize = 17 ∧
      (JvmType.walk text.toList 18).IsSafe (text.utf8ByteSize + 1) ∧
      (Signature.paramsWalk text.toList 17 1).IsSafe (text.utf8ByteSize + 1)) := by
  intro text
  have hsize : text.utf8ByteSize = 17 := by decide
  have hfound : Symbol.argsMarker? (encode text.toList) = some 13 := by
    rw [String.toList_ofList]
    decide
  have hread : (JvmType.walk text.toList 0).outcome = some (.ok (.array (.object "é"), 5)) := by
    rw [String.toList_ofList]
    exact JvmType.outcome_walk (List.nil_append _).symm
  obtain ⟨hmarker, -, -, -, hsafe, hforward, hparams, -, -⟩ := walks_within_bounds text
  exact ⟨⟨hfound, hmarker 13 hfound⟩, ⟨hread, hforward 0 _ 5 hread⟩, hsize,
    hsafe 18 (by rw [hsize]), hparams 1 (by rw [hsize]; decide) 17 (by rw [hsize]; decide)⟩

end JniLink
