import JniLink.Proofs.Host.Initializer

/-!
# The text of a marked block

A block is the lines of the declarations and of the initializer, each with the indent in front, and
an empty line between the two, which has none. Its markers are comments, so without comments nothing
of them is left but the ends of their lines.
-/

namespace JniLink

open JniLink.Text JniLink.Host

namespace Text

/-- A line is taken off the front of a text. -/
theorem lines_append_cons {line : List Char} (hfeed : '\n' ∉ line)
    (hreturn : line.getLast? ≠ some '\r') (t : List Char) :
    lines (line ++ '\n' :: t) = line :: lines t := by
  have hline : splitWhere (· == '\n') line = [line] :=
    splitWhere_eq_singleton fun c hc => by simpa using ne_of_mem_of_not_mem hc hfeed
  obtain ⟨piece, pieces, ht⟩ := List.exists_cons_of_ne_nil (splitWhere_ne_nil (· == '\n') t)
  have hcut : splitWhere (· == '\n') (line ++ '\n' :: t) = line :: piece :: pieces := by
    rw [splitWhere_append_cons rfl, hline, ht, List.singleton_append]
  have hkept : stripEnd? ['\r'] line = none :=
    stripEnd?_eq_none_of_getLast?_ne (List.cons_ne_nil _ _) hreturn
  simp only [lines, hcut, ht, List.dropLast_cons_cons, List.map_cons, hkept, Option.getD_none,
    List.getLast?_cons_cons]
  split <;> rfl

end Text

namespace Host

/-! ## Indented lines -/

/-- The lines of a text, indented. -/
def indentLines (indent t : List Char) : List Char :=
  (lines t).flatMap (indentLine indent)

theorem indentLines_cons_feed (indent t : List Char) :
    indentLines indent ('\n' :: t) = '\n' :: indentLines indent t := by
  have hcut : lines ('\n' :: t) = [] :: lines t :=
    lines_append_cons List.not_mem_nil (by rw [List.getLast?_nil]; decide) t
  rw [indentLines, hcut, List.flatMap_cons, indentLine, if_pos rfl]
  rfl

theorem indentLines_append_cons {line : List Char} (hfeed : '\n' ∉ line)
    (hreturn : line.getLast? ≠ some '\r') (hne : line ≠ []) (indent t : List Char) :
    indentLines indent (line ++ '\n' :: t) = indent ++ line ++ '\n' :: indentLines indent t := by
  rw [indentLines, lines_append_cons hfeed hreturn, List.flatMap_cons, indentLine, if_neg hne,
    List.append_assoc, List.singleton_append]
  rfl

theorem indentLines_declarationLines {decls : List Declaration} (hd : ∀ d ∈ decls, d.Spellable)
    (language : Language) (indent t : List Char) :
    indentLines indent (declarationLines language [] decls ++ t) =
      declarationLines language indent decls ++ indentLines indent t := by
  induction decls with
  | nil => rfl
  | cons d decls ih =>
    have hline : ∀ c ∈ declarationLine language d, c ≠ '\n' ∧ c ≠ '\r' := fun c hc =>
      have hchar := isLineChar_of_mem_declarationLine (hd d List.mem_cons_self) hc
      ⟨hchar.ne (by decide) (by decide), hchar.ne (by decide) (by decide)⟩
    have hne : declarationLine language d ≠ [] := by
      obtain ⟨r, hr⟩ := declarationLine_eq_cons language d
      rw [hr]
      exact List.cons_ne_nil _ _
    rw [declarationLines_cons, List.nil_append,
      indentLines_append_cons (fun hmem => (hline _ hmem).1 rfl)
        (fun hlast => (hline _ (List.mem_of_getLast? hlast)).2 rfl) hne,
      ih fun e he => hd e (List.mem_cons_of_mem d he), declarationLines_cons]

/-- The line of the call, with the words that a language sets around it. -/
theorem indentLines_call {library : String} (hfeed : '\n' ∉ library.toList)
    {opening closing : List Char} (hopening : '\n' ∉ opening) (hclosing : '\n' ∉ closing)
    (hne : closing ≠ []) (hlast : closing.getLast? ≠ some '\r') (indent t : List Char) :
    indentLines indent (opening ++ library.toList ++ closing ++ '\n' :: t) =
      indent ++ (opening ++ library.toList ++ closing) ++ '\n' :: indentLines indent t := by
  refine indentLines_append_cons ?_ ?_ (List.append_ne_nil_of_right_ne_nil _ hne) indent t
  · simp only [List.mem_append, not_or]
    exact ⟨⟨hopening, hfeed⟩, hclosing⟩
  · rwa [List.getLast?_append_of_ne_nil _ hne]

/-- The three lines of the initializer in Kotlin. -/
theorem loadLines_kotlin (library : String) :
    loadLines .kotlin library = "companion object \x7b".toList ++ '\n' ::
      ("    init \x7b System.loadLibrary(\"".toList ++ library.toList ++ "\") \x7d".toList ++
        '\n' :: ("\x7d".toList ++ ['\n'])) := by
  have hload : loadLines .kotlin library =
      "companion object \x7b\n    init \x7b System.loadLibrary(\"".toList ++ library.toList ++
        "\") \x7d\n\x7d\n".toList := rfl
  have hopening : "companion object \x7b\n    init \x7b System.loadLibrary(\"".toList =
      "companion object \x7b".toList ++ '\n' ::
        "    init \x7b System.loadLibrary(\"".toList := rfl
  have hclosing : "\") \x7d\n\x7d\n".toList =
      "\") \x7d".toList ++ '\n' :: ("\x7d".toList ++ ['\n']) := rfl
  rw [hload, hopening, hclosing]
  simp only [List.append_assoc, List.cons_append]

/-- Its one line in Java. -/
theorem loadLines_java (library : String) :
    loadLines .java library = "static \x7b System.loadLibrary(\"".toList ++ library.toList ++
      "\"); \x7d".toList ++ ['\n'] := by
  have hload : loadLines .java library = "static \x7b System.loadLibrary(\"".toList ++
      library.toList ++ "\"); \x7d\n".toList := rfl
  have hclosing : "\"); \x7d\n".toList = "\"); \x7d".toList ++ ['\n'] := rfl
  rw [hload, hclosing]
  simp only [List.append_assoc]

theorem indentLines_loadLines {library : String} (hfeed : '\n' ∉ library.toList)
    (language : Language) (indent : List Char) :
    indentLines indent (loadLines language library) = loadText language indent library := by
  have hnil : indentLines indent [] = [] := rfl
  cases language with
  | kotlin =>
    have hobject := indentLines_append_cons (by decide : '\n' ∉ "companion object \x7b".toList)
      (by decide) (by decide) indent
    have hinit := indentLines_call hfeed
      (by decide : '\n' ∉ "    init \x7b System.loadLibrary(\"".toList)
      (by decide : '\n' ∉ "\") \x7d".toList) (by decide) (by decide) indent
    have hbrace := indentLines_append_cons (by decide : '\n' ∉ "\x7d".toList) (by decide)
      (by decide) indent []
    have hopening : "    init \x7b System.loadLibrary(\"".toList =
        "    init \x7b ".toList ++ "System.loadLibrary(".toList ++ ['"'] := rfl
    have hfirst : "companion object \x7b\n".toList = "companion object \x7b".toList ++ ['\n'] := rfl
    have hclosing : '"' :: ')' :: " \x7d\n".toList = "\") \x7d".toList ++ ['\n'] := rfl
    have hlast : "\x7d\n".toList = "\x7d".toList ++ ['\n'] := rfl
    rw [loadLines_kotlin, hobject, hinit, hbrace, hnil, hopening]
    simp only [loadText, beforeLoad, afterLoad, hfirst, hlast, ← List.cons_append, hclosing,
      List.append_assoc]
    simp only [List.cons_append, List.nil_append]
  | java =>
    have hinit := indentLines_call hfeed
      (by decide : '\n' ∉ "static \x7b System.loadLibrary(\"".toList)
      (by decide : '\n' ∉ "\"); \x7d".toList) (by decide) (by decide) indent []
    have hopening : "static \x7b System.loadLibrary(\"".toList =
        "static \x7b ".toList ++ "System.loadLibrary(".toList ++ ['"'] := rfl
    have hclosing : '"' :: ')' :: "; \x7d\n".toList = "\"); \x7d".toList ++ ['\n'] := rfl
    rw [loadLines_java, hinit, hnil, hopening]
    simp only [loadText, beforeLoad, afterLoad, hclosing, List.append_assoc, List.cons_append,
      List.nil_append]

/-! ## The block -/

theorem toList_block (library : String) (decls : List Declaration) (language : Language)
    (indent : String) :
    (block library decls language indent).toList =
      blockText library decls language indent.toList := String.toList_ofList

theorem blockText_eq {library : String} (hfeed : '\n' ∉ library.toList) {decls : List Declaration}
    (hd : ∀ d ∈ decls, d.Spellable) (language : Language) (indent : List Char) :
    blockText library decls language indent =
      indent ++ ('/' :: '/' :: "<RustJNI>".toList ++ '\n' ::
        (indent ++ ('/' :: '/' :: " auto-generated code".toList ++ '\n' ::
          (declarationLines language indent decls ++ '\n' :: (loadText language indent library ++
            (indent ++ ('/' :: '/' :: "</RustJNI>".toList ++ ['\n']))))))) := by
  have hlines : (lines (declarationsText library decls language)).flatMap (indentLine indent) =
      declarationLines language indent decls ++ '\n' :: loadText language indent library := by
    rw [← indentLines_loadLines hfeed, ← indentLines_cons_feed, ← indentLines_declarationLines hd]
    rfl
  rw [blockText, hlines]
  simp only [List.append_assoc, List.cons_append]
  rfl

/-- Of a block the declarations and the initializer are left without comments. -/
theorem stripFrom_blockText {library : String}
    (hlibrary : ∀ c ∈ library.toList, c ≠ '"' ∧ c ≠ '\\' ∧ c ≠ '\n') {decls : List Declaration}
    (hd : ∀ d ∈ decls, d.Spellable) {indent : List Char} (hindent : ∀ c ∈ indent, IsPlain c)
    (language : Language) (t : List Char) :
    stripFrom .code (blockText library decls language indent ++ t) =
      indent ++ '\n' :: (indent ++ '\n' :: (declarationLines language indent decls ++ '\n' ::
        (loadText language indent library ++ (indent ++ '\n' :: stripFrom .code t)))) := by
  have hfeed : '\n' ∉ library.toList := fun hmem => (hlibrary _ hmem).2.2 rfl
  have hliteral : ∀ c ∈ library.toList, c ≠ '"' ∧ c ≠ '\\' :=
    fun c hc => ⟨(hlibrary c hc).1, (hlibrary c hc).2.1⟩
  have hlines := isPlain_of_mem_declarationLines language hindent hd
  have hempty (t : List Char) : stripFrom .code ('\n' :: t) = '\n' :: stripFrom .code t :=
    stripFrom_code_append (by decide : ∀ c ∈ ['\n'], IsPlain c) t
  have hcomment {s : List Char} (hs : '\n' ∉ s) (t : List Char) :
      stripFrom .code ('/' :: '/' :: (s ++ '\n' :: t)) = '\n' :: stripFrom .code t :=
    stripFrom_lineComment hs t
  rw [blockText_eq hfeed hd]
  simp only [List.append_assoc, List.cons_append, List.nil_append]
  rw [stripFrom_code_append hindent, hcomment (by decide), stripFrom_code_append hindent,
    hcomment (by decide), stripFrom_code_append hlines, hempty, stripFrom_loadText hindent hliteral,
    stripFrom_code_append hindent, hcomment (by decide)]

end Host

end JniLink
