import PackageReadme.Proofs.Newlines
import PackageReadme.Readme

/-! Rendering works on bytes and means characters.

No byte of a character other than the newline is a newline, so dropping newlines from the bytes of a
text leaves the bytes of the text without them (`limitAfter_bytes`), and these can always be read
again. `render_eq_normalize`: rendering never fails, and its text is the Markdown of the sections
with every run of newlines limited to two. -/
namespace PackageReadme.Newlines

/-! ### Bytes of a text -/

/-- The bytes of characters one after the other. -/
def bytes (s : List Char) : List UInt8 :=
  s.flatMap String.utf8EncodeChar

theorem toList_loop_eq_append_drop (b : ByteArray) (i : Nat) (done : List UInt8) :
    ByteArray.toList.loop b i done = done.reverse ++ b.data.toList.drop i := by
  fun_induction ByteArray.toList.loop b i done with
  | case1 i done h ih =>
    have hi : i < b.data.toList.length := by simpa using h
    have hget : b.get! i = b.data.toList[i] := by
      rw [ByteArray.get!, getElem!_pos b.data i h, Array.getElem_toList]
    rw [ih, List.drop_eq_getElem_cons hi, hget]
    simp
  | case2 i done h =>
    have hi : b.data.toList.length ≤ i := by simpa using Nat.le_of_not_lt h
    rw [List.drop_eq_nil_of_le hi, List.append_nil]

theorem toUTF8_toList (s : String) : s.toUTF8.toList = bytes s.toList := by
  have hdata : s.toUTF8.data.toList = bytes s.toList := by
    rw [String.toUTF8_eq_toByteArray, ← String.utf8Encode_toList]
    exact List.toList_data_toByteArray
  rw [ByteArray.toList, toList_loop_eq_append_drop, hdata]
  rfl

/-- The bytes of characters can be read as text again. -/
theorem fromUTF8?_bytes (s : List Char) :
    String.fromUTF8? ⟨(bytes s).toArray⟩ = some (String.ofList s) := by
  have hbytes : (⟨(bytes s).toArray⟩ : ByteArray) = (String.ofList s).toByteArray := by
    apply ByteArray.ext
    rw [String.toByteArray_ofList]
    exact List.data_toByteArray.symm
  rw [hbytes, String.fromUTF8?, dif_pos (String.ofList s).isValidUTF8]
  rfl

/-! ### Newlines among the bytes -/

theorem ofNat_ne_newlineByte {n : Nat} (hlt : n < 256) (hne : n ≠ 10) :
    UInt8.ofNat n ≠ newlineByte := by
  intro h
  have hnat := congrArg UInt8.toNat h
  rw [UInt8.toNat_ofNat_of_lt' hlt] at hnat
  exact hne hnat

/-- Only the newline is written with a newline byte: all bytes of a character beyond ASCII are
larger. -/
theorem ne_newlineByte_of_mem {c : Char} (hc : c ≠ '\n') {b : UInt8}
    (hb : b ∈ String.utf8EncodeChar c) :
    b ≠ newlineByte := by
  have hval : c.val.toNat ≠ 10 := fun h => hc (Char.ext (UInt32.toNat.inj h))
  simp only [String.utf8EncodeChar] at hb
  split at hb
  · rw [List.mem_singleton.mp hb]
    exact ofNat_ne_newlineByte (by omega) hval
  · split at hb
    · simp only [List.mem_cons, List.not_mem_nil, or_false] at hb
      rcases hb with rfl | rfl <;> exact ofNat_ne_newlineByte (by omega) (by omega)
    · split at hb
      · simp only [List.mem_cons, List.not_mem_nil, or_false] at hb
        rcases hb with rfl | rfl | rfl <;> exact ofNat_ne_newlineByte (by omega) (by omega)
      · simp only [List.mem_cons, List.not_mem_nil, or_false] at hb
        rcases hb with rfl | rfl | rfl | rfl <;> exact ofNat_ne_newlineByte (by omega) (by omega)

/-- Limiting the bytes of a text limits the text. -/
theorem limitAfter_bytes (run : Nat) (s : List Char) :
    limitAfter newlineByte run (bytes s) = bytes (limitAfter '\n' run s) := by
  induction s generalizing run with
  | nil => rfl
  | cons c rest ih =>
    by_cases hc : c = '\n'
    · subst hc
      show limitAfter newlineByte run (newlineByte :: bytes rest) = _
      rw [limitAfter, limitAfter, if_pos rfl, if_pos rfl]
      split
      · rw [ih]
        rfl
      · exact ih _
    · have hbytes : bytes (c :: rest) = String.utf8EncodeChar c ++ bytes rest := List.flatMap_cons
      rw [hbytes, limitAfter_append_of_forall_ne String.utf8EncodeChar_ne_nil
        (fun b hb => ne_newlineByte_of_mem hc hb), ih, limitAfter, if_neg hc]
      rfl

/-- A limiter that has room takes all bytes of a text and lets the limited text through. -/
theorem write_toUTF8 (s : String) :
    Limiter.write {} s.toUTF8.toList =
      (some s.toUTF8.toList.length,
        ⟨runAfter newlineByte 0 s.toUTF8.toList, { bytes := bytes (limit '\n' s.toList) }⟩) := by
  have hput : Sink.put {} (limitAfter newlineByte 0 s.toUTF8.toList) =
      (true, { bytes := bytes (limit '\n' s.toList) }) := by
    rw [toUTF8_toList, limitAfter_bytes]
    rfl
  rw [Limiter.write]
  simp only [hput, if_true]

end PackageReadme.Newlines

namespace PackageReadme

theorem Contents.render_eq (contents : Contents) :
    contents.render = .ok (Newlines.normalize contents.rawText) := by
  simp only [Contents.render, Newlines.write_toUTF8, Newlines.fromUTF8?_bytes]
  rfl

/-- **Rendering never fails**: the text of a README is the Markdown of its sections, with no words
to link and with diffs told apart unless the settings say otherwise, its runs of newlines limited to
two. -/
theorem render_eq_normalize (contents : Contents) :
    ∃ text, contents.render = .ok text ∧
      text = Newlines.normalize (String.ofList
        (Section.renderAll { words := [], diffBlocks := !contents.settings.noDiffBlocks }
          contents.sections)) ∧
      ¬ ['\n', '\n', '\n'] <:+: text.toList := by
  refine ⟨_, contents.render_eq, rfl, ?_⟩
  rw [Newlines.normalize, String.toList_ofList]
  exact Newlines.not_infix_limit _

end PackageReadme
