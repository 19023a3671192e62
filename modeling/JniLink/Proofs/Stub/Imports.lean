import JniLink.Proofs.Host.Signature
import JniLink.Proofs.Text.Block
import JniLink.Stub

/-!
# The imports of a file of stubs

A file of stubs says its types twice: in the line that imports them, which is made of the
declarations, and in the heads of its functions, which are printed from them one by one. Here both
are read from the text. `readImports?` reads the line behind the two fixed imports, if it is there;
`readHead?` reads a head behind the name of its function, line by line: parameters up to the
parenthesis that closes them, then the result.

The main statement says that the two agree for any declarations whatever: each JNI type that some
function mentions is imported, no other one is, and there is no line if there is none. That a text
holds one function for each declaration, and nothing else, is `IsFileOf`. Names play no part in it. They may hold anything, line breaks too, and stand only in front of a head and behind
it. That the stubs are valid source text is not said.
-/

namespace JniLink

open JniLink.Text

namespace JvmType

/-! ## Names of types -/

/-- The names that types other than `void` have on the native side. -/
def jniNames : List String :=
  ["jboolean", "jbyte", "jchar", "jshort", "jint", "jlong", "jfloat", "jdouble", "jstring",
    "jclass", "jobject", "jbooleanArray", "jbyteArray", "jcharArray", "jshortArray", "jintArray",
    "jlongArray", "jfloatArray", "jdoubleArray", "jobjectArray"]

theorem jniName_mem_jniNames {t : JvmType} (h : t ≠ .void) : t.jniName ∈ jniNames := by
  cases t with
  | void => exact absurd rfl h
  | primitive p => cases p <;> decide
  | object name =>
    simp only [jniName]
    split
    · decide
    · split <;> decide
  | array element =>
    cases element with
    | primitive p => cases p <;> decide
    | _ => exact List.mem_of_getLast? rfl

/-- Only `void` has the name of no value. -/
theorem jniName_eq_unit_iff {t : JvmType} : t.jniName = "()" ↔ t = .void := by
  constructor
  · intro h
    by_contra hvoid
    have hmem := jniName_mem_jniNames hvoid
    rw [h] at hmem
    exact absurd hmem (by decide)
  · rintro rfl
    rfl

theorem letters_of_mem_jniNames {name : String} (h : name ∈ jniNames) :
    name.toList ≠ [] ∧ ∀ c ∈ name.toList, c.isAlpha = true := by
  have hall : ∀ name ∈ jniNames, name.toList ≠ [] ∧ ∀ c ∈ name.toList, c.isAlpha = true := by
    decide
  exact hall name h

/-- The name of a type is made of letters, but for the parentheses of `void`. -/
theorem isAlpha_of_mem_jniName {t : JvmType} {c : Char} (h : c ∈ t.jniName.toList) :
    c.isAlpha = true ∨ c ∈ ['(', ')'] := by
  by_cases hvoid : t = .void
  · rw [hvoid] at h
    exact .inr h
  · exact .inl ((letters_of_mem_jniNames (jniName_mem_jniNames hvoid)).2 c h)

theorem notMem_jniName {c : Char} (halpha : c.isAlpha = false) (hsigns : c ∉ ['(', ')'])
    (t : JvmType) : c ∉ t.jniName.toList := by
  intro h
  rcases isAlpha_of_mem_jniName h with hc | hc
  · rw [halpha] at hc
    cases hc
  · exact hsigns hc

end JvmType

namespace Stub

/-! ## Reading a head -/

/-- What the head of a function says: its parameters by name and type, and the type of its result,
if it answers anything. -/
structure Head where
  parameters : List (String × String)
  result : Option String
  deriving DecidableEq, Repr

/-- The types that a head mentions. -/
def Head.types (h : Head) : List String :=
  h.parameters.map (·.2) ++ h.result.toList

/-- The parameter that a line of its own gives, `name: type,` behind four blanks. -/
def readParameter? (line : List Char) : Option (String × String) := do
  let inner ← stripStart? "    ".toList line
  let (name, type) ← cut? ": ".toList inner
  let type ← stripEnd? [','] type
  return (String.ofList name, String.ofList type)

/-- The type of the result in the line that closes the parameters, `) -> type {` or `) {`. -/
def readResult? (line : List Char) : Option (Option String) := do
  let inner ← stripStart? [')'] line
  let inner ← stripEnd? " \x7b".toList inner
  if inner = [] then return none
  let type ← stripStart? " -> ".toList inner
  return some (String.ofList type)

/-- The head that lines give up to the one that closes the parameters, and the lines behind it. -/
def readLines? : List (List Char) → Option (Head × List (List Char))
  | [] => none
  | line :: lines =>
    match readParameter? line with
    | some parameter => (readLines? lines).map fun (h, rest) =>
      (⟨parameter :: h.parameters, h.result⟩, rest)
    | none => (readResult? line).map fun result => (⟨[], result⟩, lines)

/-- The head that stands behind the name of a function, and the lines behind it. -/
def readHead? (t : List Char) : Option (Head × List (List Char)) :=
  match splitWhere (· == '\n') t with
  | ['('] :: lines => readLines? lines
  | _ => none

/-! ## Writing a head -/

/-- The line of a parameter. -/
def parameterLine (name type : String) : List Char :=
  "    ".toList ++ (name.toList ++ (": ".toList ++ (type.toList ++ [','])))

/-- The line that closes the parameters. -/
def closingLine (result : Option String) : List Char :=
  ')' :: (result.elim [] (fun type => " -> ".toList ++ type.toList) ++ " \x7b".toList)

/-- The lines of a head. -/
def Head.lines (h : Head) : List (List Char) :=
  ['('] :: (h.parameters.map (fun p => parameterLine p.1 p.2) ++ [closingLine h.result])

/-- A head whose names and types keep to their places in its lines. -/
structure Head.IsPlain (h : Head) : Prop where
  name : ∀ p ∈ h.parameters, ':' ∉ p.1.toList ∧ '\n' ∉ p.1.toList
  type : ∀ type ∈ h.types, '\n' ∉ type.toList

theorem readParameter?_parameterLine {name type : String} (h : ':' ∉ name.toList) :
    readParameter? (parameterLine name type) = some (name, type) := by
  have hstart : stripStart? "    ".toList (parameterLine name type) = some _ :=
    stripStart?_eq_some_iff.mpr rfl
  have hcut : cut? ": ".toList (name.toList ++ (": ".toList ++ (type.toList ++ [',']))) = some _ :=
    cut?_append_self (apart_of_notMem h) _
  have hend : stripEnd? [','] (type.toList ++ [',']) = some type.toList :=
    stripEnd?_eq_some_iff.mpr rfl
  simp only [readParameter?, hstart, Option.bind_eq_bind, Option.bind_some, hcut, hend,
    String.ofList_toList]
  rfl

theorem readParameter?_closingLine (result : Option String) :
    readParameter? (closingLine result) = none := rfl

theorem readResult?_closingLine (result : Option String) :
    readResult? (closingLine result) = some result := by
  have hstart (t : List Char) : stripStart? [')'] (')' :: t) = some t :=
    stripStart?_eq_some_iff.mpr rfl
  have hend (t : List Char) : stripEnd? " \x7b".toList (t ++ " \x7b".toList) = some t :=
    stripEnd?_eq_some_iff.mpr rfl
  cases result with
  | none => rfl
  | some type =>
    have hne : " -> ".toList ++ type.toList ≠ [] := List.cons_ne_nil _ _
    have harrow : stripStart? " -> ".toList (" -> ".toList ++ type.toList) = some type.toList :=
      stripStart?_eq_some_iff.mpr rfl
    simp only [readResult?, closingLine, Option.elim_some, hstart, Option.bind_eq_bind,
      Option.bind_some, hend, if_neg hne, harrow, String.ofList_toList]
    rfl

theorem readLines?_parameterLines {parameters : List (String × String)}
    (h : ∀ p ∈ parameters, ':' ∉ p.1.toList) (result : Option String) (rest : List (List Char)) :
    readLines? (parameters.map (fun p => parameterLine p.1 p.2) ++ closingLine result :: rest) =
      some (⟨parameters, result⟩, rest) := by
  induction parameters with
  | nil =>
    rw [List.map_nil, List.nil_append, readLines?, readParameter?_closingLine]
    dsimp only
    rw [readResult?_closingLine, Option.map_some]
  | cons p parameters ih =>
    rw [List.map_cons, List.cons_append, readLines?,
      readParameter?_parameterLine (h p List.mem_cons_self)]
    dsimp only
    rw [ih fun q hq => h q (List.mem_cons_of_mem p hq), Option.map_some]

theorem splitWhere_flatMap_lines {lines : List (List Char)} (h : ∀ line ∈ lines, '\n' ∉ line)
    (rest : List Char) :
    splitWhere (· == '\n') (lines.flatMap (· ++ ['\n']) ++ rest) =
      lines ++ splitWhere (· == '\n') rest := by
  induction lines with
  | nil => rfl
  | cons line lines ih =>
    have hline : splitWhere (· == '\n') line = [line] :=
      splitWhere_eq_singleton fun c hc =>
        beq_eq_false_iff_ne.mpr (ne_of_mem_of_not_mem hc (h line List.mem_cons_self))
    rw [List.flatMap_cons, List.append_assoc, List.append_assoc, List.singleton_append,
      splitWhere_append_cons (p := (· == '\n')) rfl, hline,
      ih fun other hother => h other (List.mem_cons_of_mem line hother)]
    rfl

theorem Head.IsPlain.notMem_lines {h : Head} (hplain : h.IsPlain) :
    ∀ line ∈ h.lines, '\n' ∉ line := by
  intro line hline
  rw [Head.lines, List.mem_cons, List.mem_append, List.mem_map, List.mem_singleton] at hline
  rcases hline with rfl | ⟨p, hp, rfl⟩ | rfl
  · decide
  · have htype := hplain.type p.2 (List.mem_append_left _ (List.mem_map_of_mem hp))
    have hname := (hplain.name p hp).2
    simp [parameterLine, hname, htype]
  · cases hresult : h.result with
    | none => decide
    | some type =>
      have htype := hplain.type type (List.mem_append_right _ (by simp [hresult]))
      simp [closingLine, htype]

/-- A head is read from its lines, whatever stands behind them. -/
theorem readHead?_lines {h : Head} (hplain : h.IsPlain) (rest : List Char) :
    readHead? (h.lines.flatMap (· ++ ['\n']) ++ rest) =
      some (h, splitWhere (· == '\n') rest) := by
  rw [readHead?, splitWhere_flatMap_lines hplain.notMem_lines, Head.lines]
  simp only [List.cons_append, List.append_assoc]
  exact readLines?_parameterLines (fun p hp => (hplain.name p hp).1) h.result _

example : readHead? "(\n    _env: JNIEnv<'local>,\n    _arg0: (),\n) \x7b\n\x7d\n".toList =
    some (⟨[("_env", "JNIEnv<'local>"), ("_arg0", "()")], none⟩, ["\x7d".toList, []]) := by
  decide

/-! ## The head of a stub -/

/-- What stands in front of the parameters of a stub: the declaration as a comment, and the name of
the function. -/
def lead (d : Declaration) : String :=
  let (abi, generics) := match d.linkage with
    | .jni => ("system", "<'local>")
    | .c => ("C", "")
  "/// " ++ d.text ++ "\n#[no_mangle]\npub extern \"" ++ abi ++ "\" fn " ++ functionName d ++
    generics

/-- The body of a stub, which logs the call and answers the default value. -/
def body (d : Declaration) : String :=
  "    log::debug!(\"" ++ d.qualifiedName ++ " called\");\n" ++
    (defaultValue d).elim "" (fun value => "    " ++ value ++ "\n") ++ "\x7d\n"

/-- The parameters in front of the declared ones. -/
def receiver (d : Declaration) : List (String × String) :=
  match d.linkage with
  | .jni => [(if d.signature.ret.isReference then "env" else "_env", "JNIEnv<'local>"),
      ("_this", "JObject<'local>")]
  | .c => []

/-- The head of the function of a declaration. -/
def head (d : Declaration) : Head where
  parameters := receiver d ++ d.signature.params.zipIdx.map fun (t, i) => (s!"_arg{i}", t.jniName)
  result := if d.signature.ret = .void then none else some d.signature.ret.jniName

theorem params_eq (d : Declaration) :
    params d = (head d).parameters.map fun p => p.1 ++ ": " ++ p.2 := by
  have hdeclared : (d.signature.params.zipIdx.map fun (t, i) => s!"_arg{i}: {t.jniName}") =
      (d.signature.params.zipIdx.map fun (t, i) => (s!"_arg{i}", t.jniName)).map
        fun p => p.1 ++ ": " ++ p.2 := by
    rw [List.map_map]
    rfl
  rw [params, head, receiver, hdeclared]
  cases d.linkage with
  | jni => cases d.signature.ret.isReference <;> rfl
  | c => rfl

/-- A stub is what stands in front of its head, the lines of the head, and its body. -/
theorem toList_text (d : Declaration) :
    (text d).toList =
      (lead d).toList ++ ((head d).lines.flatMap (· ++ ['\n']) ++ (body d).toList) := by
  have hlines : (String.join ((params d).map fun p => "    " ++ p ++ ",\n")).toList =
      ((head d).parameters.map fun p => parameterLine p.1 p.2).flatMap (· ++ ['\n']) := by
    rw [params_eq, String.toList_join, List.map_map, List.flatMap_map, List.flatMap_map]
    refine congrArg (List.flatMap · _) (funext fun p => ?_)
    simp [parameterLine]
  have hclosing : (closingLine (head d).result) = ")".toList ++
      ((if d.signature.ret = .void then "" else " -> " ++ d.signature.ret.jniName).toList ++
        " \x7b".toList) := by
    unfold head closingLine
    split <;> simp
  rw [Head.lines, List.flatMap_cons, List.flatMap_append, ← hlines, hclosing]
  unfold text lead body
  cases d.linkage <;> simp

theorem types_head (d : Declaration) :
    (head d).types = (receiver d).map (·.2) ++ (d.signature.params.map JvmType.jniName ++
      if d.signature.ret = .void then [] else [d.signature.ret.jniName]) := by
  have hdeclared :
      (d.signature.params.zipIdx.map fun (t, i) => (s!"_arg{i}", t.jniName)).map (·.2) =
        d.signature.params.map JvmType.jniName := by
    calc
      _ = (d.signature.params.zipIdx.map Prod.fst).map JvmType.jniName := by
        rw [List.map_map, List.map_map]
        rfl
      _ = _ := by rw [List.zipIdx_map_fst]
  rw [Head.types, head, List.map_append, hdeclared, List.append_assoc]
  split <;> rfl

theorem of_mem_receiver {d : Declaration} {p : String × String} (h : p ∈ receiver d) :
    p.1 ∈ ["env", "_env", "_this"] ∧ p.2 ∈ ["JNIEnv<'local>", "JObject<'local>"] := by
  unfold receiver at h
  split at h
  · rcases List.mem_cons.mp h with rfl | h
    · constructor
      · show (if d.signature.ret.isReference then "env" else "_env") ∈ _
        split <;> decide
      · exact List.mem_cons_self
    · rw [List.mem_singleton.mp h]
      decide
  · cases h

theorem isPlain_head (d : Declaration) : (head d).IsPlain := by
  constructor
  · intro p hp
    rcases List.mem_append.mp hp with hp | hp
    · have hall : ∀ name ∈ ["env", "_env", "_this"], ':' ∉ name.toList ∧ '\n' ∉ name.toList := by
        decide
      exact hall _ (of_mem_receiver hp).1
    · obtain ⟨⟨t, i⟩, -, rfl⟩ := List.mem_map.mp hp
      have hword {c : Char} (hc : isWord c = false) (harg : c ∉ "_arg".toList) :
          c ∉ (s!"_arg{i}").toList := by
        intro hmem
        change c ∈ ("_arg" ++ toString i).toList at hmem
        rw [String.toList_append] at hmem
        rcases List.mem_append.mp hmem with h | h
        · exact harg h
        · rw [isWord_of_mem_toString h] at hc
          cases hc
      exact ⟨hword (by decide) (by decide), hword (by decide) (by decide)⟩
  · intro type htype
    rw [types_head, List.mem_append, List.mem_append, List.mem_map, List.mem_map] at htype
    have hname (t : JvmType) : '\n' ∉ t.jniName.toList := t.notMem_jniName rfl (by decide)
    rcases htype with ⟨p, hp, rfl⟩ | ⟨t, -, rfl⟩ | htype
    · have hall : ∀ type ∈ ["JNIEnv<'local>", "JObject<'local>"], '\n' ∉ type.toList := by decide
      exact hall _ (of_mem_receiver hp).2
    · exact hname t
    · split at htype
      · cases htype
      · rw [List.mem_singleton.mp htype]
        exact hname _

/-- The head of a stub is read from its text, and the lines of the body stand behind it. -/
theorem readHead?_text (d : Declaration) :
    ∃ tail, (text d).toList = (lead d).toList ++ tail ∧
      readHead? tail = some (head d, splitWhere (· == '\n') (body d).toList) :=
  ⟨_, toList_text d, readHead?_lines (isPlain_head d) _⟩

/-! ## Types that are mentioned -/

/-- Some head mentions the name of a type, other than that of no value. -/
def Mentions (heads : List Head) (name : String) : Prop :=
  name ≠ "()" ∧ (∃ t : JvmType, t.jniName = name) ∧ ∃ h ∈ heads, name ∈ h.types

/-- The environment and the receiver have types that are no names of this kind. -/
theorem jniName_notMem_receiver (d : Declaration) (t : JvmType) :
    t.jniName ∉ (receiver d).map (·.2) := by
  have hall : ∀ type ∈ ["JNIEnv<'local>", "JObject<'local>"], '<' ∈ type.toList := by decide
  intro hmem
  obtain ⟨p, hp, heq⟩ := List.mem_map.mp hmem
  have hsign := hall _ (of_mem_receiver hp).2
  rw [heq] at hsign
  exact t.notMem_jniName rfl (by decide) hsign

theorem jniName_mem_types_head_iff {d : Declaration} {t : JvmType} (h : t ≠ .void) :
    t.jniName ∈ (head d).types ↔ ∃ t' ∈ mentioned d, t' ≠ .void ∧ t'.jniName = t.jniName := by
  have hvoid {t' : JvmType} (heq : t'.jniName = t.jniName) : t' ≠ .void := by
    rintro rfl
    exact h (JvmType.jniName_eq_unit_iff.mp heq.symm)
  rw [types_head, List.mem_append, or_iff_right (jniName_notMem_receiver d t), mentioned,
    List.mem_append, List.mem_map]
  constructor
  · rintro (⟨t', ht', heq⟩ | hret)
    · exact ⟨t', List.mem_append_left _ ht', hvoid heq, heq⟩
    · split at hret
      · cases hret
      · have heq := (List.mem_singleton.mp hret).symm
        exact ⟨_, List.mem_append_right _ List.mem_cons_self, hvoid heq, heq⟩
  · rintro ⟨t', ht', hne, heq⟩
    rcases List.mem_append.mp ht' with ht' | ht'
    · exact .inl ⟨t', ht', heq⟩
    · rw [List.mem_singleton.mp ht'] at hne heq
      exact .inr (by rw [if_neg hne, heq]; exact List.mem_singleton_self _)

theorem mem_imports_iff {decls : List Declaration} {name : String} :
    name ∈ imports decls ↔
      ∃ d ∈ decls, ∃ t ∈ mentioned d, t ≠ .void ∧ t.jniName = name := by
  simp only [imports, mem_ascending, List.mem_map, List.mem_filter, List.mem_flatMap,
    decide_eq_true_eq]
  constructor
  · rintro ⟨t, ⟨⟨d, hd, ht⟩, hne⟩, rfl⟩
    exact ⟨d, hd, t, ht, hne, rfl⟩
  · rintro ⟨d, hd, t, ht, hne, rfl⟩
    exact ⟨t, ⟨⟨d, hd, ht⟩, hne⟩, rfl⟩

/-- What is collected from the declarations is what the heads of their functions mention. -/
theorem mem_imports_iff_mentions {decls : List Declaration} {name : String} :
    name ∈ imports decls ↔ Mentions (decls.map head) name := by
  rw [mem_imports_iff]
  constructor
  · rintro ⟨d, hd, t, ht, hne, rfl⟩
    refine ⟨fun h => hne (JvmType.jniName_eq_unit_iff.mp h), ⟨t, rfl⟩, head d,
      List.mem_map_of_mem hd, ?_⟩
    exact (jniName_mem_types_head_iff hne).mpr ⟨t, ht, hne, rfl⟩
  · rintro ⟨hunit, ⟨t, rfl⟩, h, hh, hmem⟩
    obtain ⟨d, hd, rfl⟩ := List.mem_map.mp hh
    have hne : t ≠ .void := fun h => hunit (JvmType.jniName_eq_unit_iff.mpr h)
    exact ⟨d, hd, (jniName_mem_types_head_iff hne).mp hmem⟩

/-! ## The line of the imports -/

/-- The imports that every file has. -/
def fixedImports : String := "use jni::objects::JObject;\nuse jni::JNIEnv;\n"

/-- The names that the import line at the front of a text lists, if it is there, and the text behind
it. -/
def readImportLine? (t : List Char) : Option (Option (List String) × List Char) :=
  match stripStart? "use jni::sys::\x7b".toList t with
  | none => some (none, t)
  | some t => (cut? "\x7d;\n".toList t).map fun (names, rest) =>
    (some ((((splitWhere (· == ',') names).map trim).filter (· ≠ [])).map String.ofList), rest)

/-- What a file imports besides what every file does, and the text behind the imports. -/
def readImports? (t : List Char) : Option (Option (List String) × List Char) :=
  (stripStart? fixedImports.toList t).bind readImportLine?

theorem joinWith_eq_intercalate (sep : List Char) (parts : List (List Char)) :
    joinWith sep parts = sep.intercalate parts := by
  induction parts with
  | nil => rfl
  | cons part parts ih =>
    cases parts with
    | nil => exact (List.append_nil part).symm
    | cons part' parts => rw [joinWith_cons_cons, ih, List.intercalate_cons_cons]

/-- The names of types are read from the line that imports them. -/
theorem readImportLine?_importLine {names : List String}
    (hnames : ∀ name ∈ names, name ∈ JvmType.jniNames) (hne : names ≠ []) (rest : List Char) :
    readImportLine? ((importLine names).toList ++ rest) = some (some names, rest) := by
  have hletters : ∀ part ∈ names.map String.toList, part ≠ [] ∧ ∀ c ∈ part, c.isAlpha = true := by
    intro part hpart
    obtain ⟨name, hname, rfl⟩ := List.mem_map.mp hpart
    exact JvmType.letters_of_mem_jniNames (hnames name hname)
  have hnot {c : Char} (hc : c.isAlpha = false) : ∀ part ∈ names.map String.toList, c ∉ part := by
    intro part hpart hmem
    rw [(hletters part hpart).2 c hmem] at hc
    cases hc
  have hlist : ((splitWhere (· == ',') (joinWith ", ".toList (names.map String.toList))).map
      trim).filter (· ≠ []) = names.map String.toList := by
    apply Host.filter_splitWhere_joinWith
    intro part hpart
    refine ⟨(hletters part hpart).1, hnot rfl part hpart, trim_eq_self fun c hc => ?_⟩
    have halpha := (hletters part hpart).2 c hc
    exact isBlank_of_isWord (isWord_of_isAlphanum (by rw [Char.isAlphanum, halpha, Bool.true_or]))
  -- no name and no comma holds the brace that ends the list
  have hbrace : '\x7d' ∉ joinWith ", ".toList (names.map String.toList) := by
    intro hmem
    rcases mem_joinWith hmem with hsep | ⟨part, hpart, hc⟩
    · exact absurd hsep (by decide)
    · exact hnot rfl part hpart hc
  have htext : (importLine names).toList ++ rest = "use jni::sys::\x7b".toList ++
      (joinWith ", ".toList (names.map String.toList) ++ ("\x7d;\n".toList ++ rest)) := by
    rw [importLine, if_neg (by simpa using hne), String.toList_append, String.toList_append,
      String.toList_intercalate, ← joinWith_eq_intercalate, List.append_assoc, List.append_assoc]
  have hcut (t : List Char) (ht : '\x7d' ∉ t) :
      cut? "\x7d;\n".toList (t ++ ("\x7d;\n".toList ++ rest)) = some (t, rest) :=
    cut?_append_self (apart_of_notMem ht) rest
  rw [readImportLine?, htext, stripStart?_eq_some_iff.mpr rfl]
  dsimp only
  rw [hcut _ hbrace, Option.map_some, hlist, List.map_map]
  simp

/-- Without the line, a stub or nothing follows the imports that every file has. -/
theorem readImportLine?_stubs {stubs : List String}
    (h : ∀ stub ∈ stubs, ∃ t, stub.toList = '\n' :: t) :
    readImportLine? (String.join stubs).toList = some (none, (String.join stubs).toList) := by
  have hstart : stripStart? "use jni::sys::\x7b".toList (String.join stubs).toList = none := by
    cases stubs with
    | nil => rfl
    | cons stub stubs =>
      obtain ⟨t, ht⟩ := h stub List.mem_cons_self
      rw [String.join_cons, String.toList_append, ht]
      rfl
  rw [readImportLine?, hstart]

/-! ## The file -/

/-- A text is the stub of a declaration, a line break in front: the function has this head. -/
def Defines (d : Declaration) (stub : String) (h : Head) : Prop :=
  ∃ tail, stub.toList = '\n' :: (lead d).toList ++ tail ∧
    readHead? tail = some (h, splitWhere (· == '\n') (body d).toList)

theorem defines_text (d : Declaration) : Defines d ("\n" ++ text d) (head d) := by
  obtain ⟨tail, htext, htail⟩ := readHead?_text d
  refine ⟨tail, ?_, htail⟩
  rw [String.toList_append, htext]
  rfl

/-- The stubs of some declarations as they stand in a file, each with the head of its function. -/
def stubs (decls : List Declaration) : List (String × Head) :=
  decls.map fun d => ("\n" ++ text d, head d)

theorem map_fst_stubs (decls : List Declaration) :
    (stubs decls).map (·.1) = decls.map fun d => "\n" ++ text d := by
  rw [stubs, List.map_map]
  rfl

theorem map_snd_stubs (decls : List Declaration) : (stubs decls).map (·.2) = decls.map head := by
  rw [stubs, List.map_map]
  rfl

theorem forall₂_defines_stubs (decls : List Declaration) :
    List.Forall₂ (fun d stub => Defines d stub.1 stub.2) decls (stubs decls) := by
  rw [stubs, List.forall₂_map_right_iff, List.forall₂_same]
  exact fun d _ => defines_text d

/-- The file reads as the types that are collected, in a line if there are any, and the stubs. -/
theorem readImports?_toList_file (decls : List Declaration) :
    readImports? (file decls).toList =
      some (if imports decls = [] then none else some (imports decls),
        (String.join ((stubs decls).map (·.1))).toList) := by
  have hfile : file decls = fixedImports ++ importLine (imports decls) ++
      String.join ((stubs decls).map (·.1)) := by
    rw [map_fst_stubs]
    rfl
  have hfixed (t : List Char) :
      stripStart? fixedImports.toList (fixedImports.toList ++ t) = some t :=
    stripStart?_eq_some_iff.mpr rfl
  rw [readImports?, hfile, String.toList_append, String.toList_append, List.append_assoc, hfixed,
    Option.bind_some]
  split
  next hnil =>
    rw [hnil]
    apply readImportLine?_stubs
    intro stub hstub
    rw [map_fst_stubs] at hstub
    obtain ⟨d, -, rfl⟩ := List.mem_map.mp hstub
    exact ⟨_, String.toList_append⟩
  next hne =>
    refine readImportLine?_importLine (fun name hname => ?_) hne _
    obtain ⟨d, -, t, -, ht, rfl⟩ := mem_imports_iff.mp hname
    exact JvmType.jniName_mem_jniNames ht

/-- A text is a file of stubs: behind its imports stands one function for each declaration, in their
order, and nothing else. -/
def IsFileOf (decls : List Declaration) (t : String) : Prop :=
  ∃ (line : Option (List String)) (functions : List (String × Head)),
    readImports? t.toList = some (line, (String.join (functions.map (·.1))).toList) ∧
      List.Forall₂ (fun d function => Defines d function.1 function.2) decls functions

theorem isFileOf_file (decls : List Declaration) : IsFileOf decls (file decls) :=
  ⟨_, stubs decls, readImports?_toList_file decls, forall₂_defines_stubs decls⟩

/-- Whatever is declared, the file reads as an import line and one function for each declaration, in
their order. The line lists, each once and in ascending order, the JNI types that the heads of the
functions mention, and is absent exactly if they mention none. -/
theorem readImports?_file (decls : List Declaration) :
    ∃ (line : Option (List String)) (functions : List (String × Head)),
      readImports? (file decls).toList =
        some (line, (String.join (functions.map (·.1))).toList) ∧
      List.Forall₂ (fun d function => Defines d function.1 function.2) decls functions ∧
      (line.getD []).Pairwise (· < ·) ∧
      (∀ name, name ∈ line.getD [] ↔ Mentions (functions.map (·.2)) name) ∧
      (line = none ↔ ∀ name, ¬ Mentions (functions.map (·.2)) name) := by
  refine ⟨_, stubs decls, readImports?_toList_file decls, forall₂_defines_stubs decls, ?_⟩
  simp only [map_snd_stubs, ← mem_imports_iff_mentions, ← List.eq_nil_iff_forall_not_mem]
  by_cases hnil : imports decls = []
  · rw [if_pos hnil, hnil]
    exact ⟨List.Pairwise.nil, fun _ => Iff.rfl, iff_of_true rfl rfl⟩
  · rw [if_neg hnil]
    exact ⟨pairwise_ascending _, fun _ => Iff.rfl, iff_of_false nofun hnil⟩

end Stub

end JniLink
