import JniLink.Proofs.Host.Comment
import JniLink.Proofs.Host.Native
import JniLink.Proofs.Host.Signature

/-!
# The lines of native functions

A line that was written for a declaration is read as that declaration and nothing else, wherever the
line stands and whatever comes behind it; so the lines of a list of declarations are read as the
list. Only the result type has to be free of dollar signs: the scanner takes them for part of a type
among the parameters, but not behind them.
-/

namespace JniLink

open JniLink.Text JniLink.Host

/-- A declaration that a host source can spell: the name is an identifier, the classes have binary
names, and the classes in the result are no nested ones. -/
structure Declaration.Spellable (d : Declaration) : Prop where
  name : IsIdentifier d.name.toList
  types : ∀ t ∈ d.signature.ret :: d.signature.params, t.AllNames IsBinaryName
  ret : d.signature.ret.AllNames fun name => '$' ∉ name.toList

instance decidableSpellable (d : Declaration) : Decidable d.Spellable :=
  decidable_of_iff
    (IsIdentifier d.name.toList ∧
      (∀ t ∈ d.signature.ret :: d.signature.params, t.AllNames IsBinaryName) ∧
      d.signature.ret.AllNames fun name => '$' ∉ name.toList)
    ⟨fun ⟨name, types, ret⟩ => ⟨name, types, ret⟩, fun ⟨name, types, ret⟩ => ⟨name, types, ret⟩⟩

namespace Host

/-! ## Places where no native function begins -/

/-- The word that every native function begins with. -/
def nativeWord : Language → List Char
  | .kotlin => "external".toList
  | .java => "native".toList

theorem native_eq_none {language : Language} {before : Option Char} {t : List Char}
    (h : stripStart? (nativeWord language) t = none) :
    HostSource.native language before t = none := by
  cases language with
  | kotlin =>
    rw [HostSource.native, kotlinNative, keyword?_eq_none h]
    rfl
  | java =>
    rw [HostSource.native, javaNative, keyword?_eq_none h]
    rfl

theorem readsNothing_native {language : Language} {piece : List Char}
    (h : Apart (nativeWord language) piece) (before : Option Char) (t : List Char) :
    ReadsNothing (HostSource.native language) before piece t := by
  refine readsNothing_of_apart [nativeWord language] (fun before t hnone => ?_) ?_ before t
  · exact native_eq_none (hnone _ (List.mem_singleton_self _))
  · exact fun word hword => List.mem_singleton.mp hword ▸ h

theorem apart_nativeWord_of_blank {piece : List Char} (h : ∀ c ∈ piece, isBlank c = true)
    (language : Language) : Apart (nativeWord language) piece := by
  cases language with
  | kotlin => exact apart_of_notMem fun hmem => absurd (h _ hmem) (by decide)
  | java => exact apart_of_notMem fun hmem => absurd (h _ hmem) (by decide)

/-! ## One line -/

section Line

variable {language : Language} {before : Option Char} {piece rest : List Char} {n : Native}

/-- What is read up to the end of a line leaves the next one. -/
theorem allMatches_line (hne : piece ≠ [])
    (h : HostSource.native language before (piece ++ '\n' :: rest) = some (n, '\n' :: rest)) :
    allMatches (HostSource.native language) before 0 (piece ++ '\n' :: rest) =
      n :: allMatches (HostSource.native language) (some '\n') 0 rest := by
  have hfeed : Apart (nativeWord language) ['\n'] := apart_nativeWord_of_blank (by decide) language
  rw [allMatches_of_eq_some hne h]
  exact congrArg (n :: ·) (allMatches_append (readsNothing_native hfeed _ rest))

/-- What is read up to the first word of a later line leaves the next line, too: there are only
blanks before that word. -/
theorem allMatches_line_trimStart
    (h : HostSource.native language before (piece ++ '\n' :: rest) = some (n, trimStart rest)) :
    allMatches (HostSource.native language) before 0 (piece ++ '\n' :: rest) =
      n :: allMatches (HostSource.native language) (some '\n') 0 rest := by
  obtain ⟨w, r, hw, hr, rfl⟩ : ∃ w r, (∀ c ∈ w, isBlank c = true) ∧ trimStart rest = r ∧
      rest = w ++ r :=
    ⟨_, _, fun _ => List.mem_takeWhile_imp, rfl, List.takeWhile_append_dropWhile.symm⟩
  have hblank := readsNothing_native (apart_nativeWord_of_blank hw language) (some '\n') r
  have hcut : piece ++ '\n' :: (w ++ r) = piece ++ '\n' :: w ++ r := by
    rw [List.append_assoc, List.cons_append]
  rw [hr, hcut] at h
  rw [hcut, allMatches_of_eq_some (by simp) h, lastOr_append, lastOr_cons, allMatches_append hblank]

end Line

section Declaration

variable {language : Language} {before : Option Char} {d : Declaration} (hd : d.Spellable)
include hd

theorem parenthesis_notMem_spellParams (language : Language) :
    ')' ∉ spellParams language d.signature.params := by
  intro hmem
  rcases mem_spellParams (fun t ht => hd.types t (List.mem_cons_of_mem _ ht)) hmem with hname | hsign
  · exact hname.ne (by decide) (by decide) (by decide) rfl
  · exact absurd hsign (by decide)

theorem mem_spelling_ret {c : Char} (h : c ∈ (d.signature.ret.spelling language).toList) :
    isWord c = true ∨ c = '.' ∨ c ∈ JvmType.signs language := by
  have hdollar : c ≠ '$' := ne_of_mem_of_not_mem h (JvmType.dollar_notMem_spelling hd.ret)
  have hnames := hd.types _ List.mem_cons_self
  rcases JvmType.mem_spelling hnames c h with (hword | hdollar' | hdot) | hsign
  · exact .inl hword
  · exact absurd hdollar' hdollar
  · exact .inr (.inl hdot)
  · exact .inr (.inr hsign)

theorem isKotlinTypeChar_of_mem_ret {c : Char} (h : c ∈ (d.signature.ret.spelling .kotlin).toList) :
    isKotlinTypeChar c = true := by
  have hsigns : ∀ c ∈ JvmType.signs .kotlin, isKotlinTypeChar c = true := by decide
  rcases mem_spelling_ret hd h with hword | rfl | hsign
  · simp only [isKotlinTypeChar, hword, Bool.true_or]
  · rfl
  · exact hsigns c hsign

theorem isJavaTypeChar_of_mem_ret {c : Char} (h : c ∈ (d.signature.ret.spelling .java).toList) :
    isJavaTypeChar c = true := by
  have hsigns : ∀ c ∈ JvmType.signs .java, isJavaTypeChar c = true := by decide
  rcases mem_spelling_ret hd h with hword | rfl | hsign
  · simp only [isJavaTypeChar, hword, Bool.true_or]
  · rfl
  · exact hsigns c hsign

theorem allMatches_kotlinLine (hb : before.any isWord = false) {rest : List Char}
    (hrest : (trimStart rest).head? ≠ some ':') :
    allMatches (HostSource.native .kotlin) before 0
        ("external fun ".toList ++ (d.name.toList ++ '(' :: spellParams .kotlin d.signature.params ++
          ')' :: ((if d.signature.ret = .void then []
            else ": ".toList ++ (d.signature.ret.spelling .kotlin).toList) ++ '\n' :: rest))) =
      nativeOf .kotlin d :: allMatches (HostSource.native .kotlin) (some '\n') 0 rest := by
  have hparams := parenthesis_notMem_spellParams hd .kotlin
  have hcut (result : List Char) : "external fun ".toList ++ (d.name.toList ++
      '(' :: spellParams .kotlin d.signature.params ++ ')' :: (result ++ '\n' :: rest)) =
      "external fun ".toList ++ (d.name.toList ++
        '(' :: spellParams .kotlin d.signature.params ++ ')' :: result) ++ '\n' :: rest := by
    simp only [List.append_assoc, List.cons_append]
  by_cases hvoid : d.signature.ret = .void
  · have hread := kotlinNative_append_of_ne_colon (t := '\n' :: rest) hb hd.name hparams hrest
    rw [← List.nil_append ('\n' :: rest), hcut] at hread
    rw [if_pos hvoid, hcut, nativeOf, if_pos ⟨rfl, hvoid⟩]
    exact allMatches_line_trimStart hread
  · have hret := fun c hc => isKotlinTypeChar_of_mem_ret hd (c := c) hc
    have hnames := hd.types _ List.mem_cons_self
    have hread := kotlinNative_append_result (t := rest) hb hd.name hparams hret
      (JvmType.isBlank_of_mem_spelling .kotlin hnames) (JvmType.spelling_ne_nil .kotlin hnames)
    rw [hcut] at hread
    rw [if_neg hvoid, hcut, nativeOf, if_neg fun h => hvoid h.2]
    exact allMatches_line (by simp) hread

theorem allMatches_javaLine (hb : before.any isWord = false) (rest : List Char) :
    allMatches (HostSource.native .java) before 0
        ("native ".toList ++ ((d.signature.ret.spelling .java).toList ++ ' ' :: (d.name.toList ++
          '(' :: spellParams .java d.signature.params ++ ')' :: ';' :: '\n' :: rest))) =
      nativeOf .java d :: allMatches (HostSource.native .java) (some '\n') 0 rest := by
  have hparams := parenthesis_notMem_spellParams hd .java
  have hret := fun c hc => isJavaTypeChar_of_mem_ret hd (c := c) hc
  have hnames := hd.types _ List.mem_cons_self
  have hread := javaNative_append (t := '\n' :: rest) hb hd.name hparams hret
    (JvmType.isBlank_of_mem_spelling .java hnames) (JvmType.spelling_ne_nil .java hnames)
  have hcut : "native ".toList ++ ((d.signature.ret.spelling .java).toList ++ ' ' ::
      (d.name.toList ++ '(' :: spellParams .java d.signature.params ++ ')' :: ';' :: '\n' :: rest)) =
      "native ".toList ++ ((d.signature.ret.spelling .java).toList ++ ' ' :: (d.name.toList ++
        '(' :: spellParams .java d.signature.params ++ ");".toList)) ++ '\n' :: rest := by
    simp only [List.append_assoc, List.cons_append]
    rfl
  rw [hcut] at hread ⊢
  rw [nativeOf, if_neg (by rintro ⟨⟨⟩, -⟩)]
  exact allMatches_line (by simp) hread

end Declaration

/-- A line in Kotlin. The words before the keyword stand apart, because the reading begins with it. -/
theorem declarationLine_kotlin (d : Declaration) :
    declarationLine .kotlin d = "private ".toList ++ "external fun ".toList ++ d.name.toList ++
      '(' :: spellParams .kotlin d.signature.params ++ ')' ::
        (if d.signature.ret = .void then []
          else ": ".toList ++ (d.signature.ret.spelling .kotlin).toList) := rfl

/-- A line in Java. -/
theorem declarationLine_java (d : Declaration) :
    declarationLine .java d = "private static ".toList ++ "native ".toList ++
      (d.signature.ret.spelling .java).toList ++ ' ' :: d.name.toList ++
        '(' :: spellParams .java d.signature.params ++ [')', ';'] := rfl

theorem declarationLine_eq_cons (language : Language) (d : Declaration) :
    ∃ r, declarationLine language d = 'p' :: r := by
  cases language <;> exact ⟨_, rfl⟩

/-- The line of a declaration is read as the declaration, and the walk goes on in the next line. -/
theorem allMatches_declarationLine {language : Language} {d : Declaration} (hd : d.Spellable)
    {indent : List Char} (hindent : ∀ c ∈ indent, isBlank c = true) (before : Option Char)
    {rest : List Char} (hrest : (trimStart rest).head? ≠ some ':') :
    allMatches (HostSource.native language) before 0
        (indent ++ declarationLine language d ++ '\n' :: rest) =
      nativeOf language d :: allMatches (HostSource.native language) (some '\n') 0 rest := by
  have hblank := apart_nativeWord_of_blank hindent language
  cases language with
  | kotlin =>
    have hfront : Apart (nativeWord .kotlin) (indent ++ "private ".toList) :=
      hblank.append (by decide)
    have hlast : lastOr before (indent ++ "private ".toList) = some ' ' := by
      rw [lastOr_append]
      rfl
    have hline := allMatches_kotlinLine hd (by decide : (some ' ').any isWord = false) hrest
    simp only [declarationLine_kotlin, List.append_assoc, List.cons_append] at hline ⊢
    rw [← List.append_assoc, allMatches_append (readsNothing_native hfront _ _), hlast]
    exact hline
  | java =>
    have hfront : Apart (nativeWord .java) (indent ++ "private static ".toList) :=
      hblank.append (by decide)
    have hlast : lastOr before (indent ++ "private static ".toList) = some ' ' := by
      rw [lastOr_append]
      rfl
    have hline := allMatches_javaLine hd (by decide : (some ' ').any isWord = false) rest
    simp only [declarationLine_java, List.append_assoc, List.cons_append, List.nil_append] at hline ⊢
    rw [← List.append_assoc, allMatches_append (readsNothing_native hfront _ _), hlast]
    exact hline

/-! ## All lines -/

/-- The lines of some declarations, indented. -/
def declarationLines (language : Language) (indent : List Char) (decls : List Declaration) :
    List Char :=
  decls.flatMap fun d => indent ++ declarationLine language d ++ ['\n']

theorem declarationLines_cons (language : Language) (indent : List Char) (d : Declaration)
    (decls : List Declaration) (rest : List Char) :
    declarationLines language indent (d :: decls) ++ rest =
      indent ++ declarationLine language d ++
        '\n' :: (declarationLines language indent decls ++ rest) := by
  simp only [declarationLines, List.flatMap_cons, List.append_assoc, List.cons_append,
    List.nil_append]

theorem head?_trimStart_declarationLines (language : Language) {indent : List Char}
    (hindent : ∀ c ∈ indent, isBlank c = true) (decls : List Declaration) {rest : List Char}
    (hrest : (trimStart rest).head? ≠ some ':') :
    (trimStart (declarationLines language indent decls ++ rest)).head? ≠ some ':' := by
  cases decls with
  | nil => exact hrest
  | cons d decls =>
    obtain ⟨r, hr⟩ := declarationLine_eq_cons language d
    rw [declarationLines_cons, List.append_assoc, trimStart_append hindent, hr, List.cons_append,
      trimStart_cons (by decide), List.head?_cons]
    decide

/-- The lines of some declarations are read as the declarations. -/
theorem allMatches_declarationLines {language : Language} {decls : List Declaration}
    (hd : ∀ d ∈ decls, d.Spellable) {indent : List Char} (hindent : ∀ c ∈ indent, isBlank c = true)
    {rest : List Char} (hrest : (trimStart rest).head? ≠ some ':') :
    allMatches (HostSource.native language) (some '\n') 0
        (declarationLines language indent decls ++ rest) =
      decls.map (nativeOf language) ++
        allMatches (HostSource.native language) (some '\n') 0 rest := by
  induction decls with
  | nil => rfl
  | cons d decls ih =>
    have htail := head?_trimStart_declarationLines language hindent decls hrest
    rw [declarationLines_cons, allMatches_declarationLine (hd d List.mem_cons_self) hindent _ htail,
      ih fun e he => hd e (List.mem_cons_of_mem d he), List.map_cons, List.cons_append]

/-! ## Characters of the lines -/

/-- A character of a line: one of a name, or one of these signs. -/
def IsLineChar (c : Char) : Prop :=
  IsNameChar c ∨ c ∈ "<>[]: ,();".toList

theorem IsLineChar.ne {c d : Char} (h : IsLineChar c) (hword : isWord d = false)
    (hsigns : d ∉ "$.<>[]: ,();".toList) : c ≠ d := by
  rintro rfl
  rcases h with hname | hsign
  · refine hname.ne hword ?_ ?_ rfl
    all_goals
      rintro rfl
      exact hsigns (by decide)
  · exact hsigns (List.mem_append_right ['$', '.'] hsign)

theorem isLineChar_of_mem_declarationLine {language : Language} {d : Declaration} (hd : d.Spellable)
    {c : Char} (h : c ∈ declarationLine language d) : IsLineChar c := by
  have hname : c ∈ d.name.toList → IsLineChar c := fun hc => .inl (.inl (hd.name.isWord c hc))
  have hparams : c ∈ spellParams language d.signature.params → IsLineChar c := by
    have hsigns : ∀ c ∈ "<>[]: ,".toList, c ∈ "<>[]: ,();".toList := by decide
    have hnames := fun t ht => hd.types t (List.mem_cons_of_mem d.signature.ret ht)
    exact fun hc => (mem_spellParams hnames hc).imp id (hsigns c)
  have hret : c ∈ (d.signature.ret.spelling language).toList → IsLineChar c := by
    have hsigns : ∀ c ∈ JvmType.signs language, c ∈ "<>[]: ,();".toList := by
      cases language <;> decide
    have hnames := hd.types d.signature.ret List.mem_cons_self
    exact fun hc => (JvmType.mem_spelling hnames c hc).imp id (hsigns c)
  have hsign (w : List Char) (hw : ∀ c ∈ w, isWord c = true ∨ c ∈ "<>[]: ,();".toList)
      (hc : c ∈ w) : IsLineChar c := (hw c hc).imp .inl id
  cases language with
  | kotlin =>
    rw [declarationLine_kotlin] at h
    simp only [List.mem_append, List.mem_cons] at h
    rcases h with (((h | h) | h) | rfl | h) | rfl | h
    · exact hsign _ (by decide) h
    · exact hsign _ (by decide) h
    · exact hname h
    · exact .inr (by decide)
    · exact hparams h
    · exact .inr (by decide)
    · split at h
      · cases h
      · exact (List.mem_append.mp h).elim (hsign _ (by decide)) hret
  | java =>
    rw [declarationLine_java] at h
    simp only [List.mem_append, List.mem_cons] at h
    rcases h with ((((h | h) | h) | rfl | h) | rfl | h) | rfl | rfl | h
    · exact hsign _ (by decide) h
    · exact hsign _ (by decide) h
    · exact hret h
    · exact .inr (by decide)
    · exact hname h
    · exact .inr (by decide)
    · exact hparams h
    · exact .inr (by decide)
    · exact .inr (by decide)
    · cases h

theorem isPlain_of_isIdentifier {name : List Char} (h : IsIdentifier name) :
    ∀ c ∈ name, IsPlain c := fun c hc =>
  ⟨ne_of_isWord (h.isWord c hc) (by decide), ne_of_isWord (h.isWord c hc) (by decide),
    ne_of_isWord (h.isWord c hc) (by decide)⟩

theorem isPlain_of_mem_declarationLines (language : Language) {indent : List Char}
    {decls : List Declaration} (hindent : ∀ c ∈ indent, IsPlain c) (hd : ∀ d ∈ decls, d.Spellable) :
    ∀ c ∈ declarationLines language indent decls, IsPlain c := by
  intro c hc
  obtain ⟨d, hmem, hc⟩ := List.mem_flatMap.mp hc
  rcases List.mem_append.mp hc with hc | hc
  · rcases List.mem_append.mp hc with hc | hc
    · exact hindent c hc
    · have hline := isLineChar_of_mem_declarationLine (hd d hmem) hc
      exact ⟨hline.ne (by decide) (by decide), hline.ne (by decide) (by decide),
        hline.ne (by decide) (by decide)⟩
  · rw [List.mem_singleton.mp hc]
    exact ⟨by decide, by decide, by decide⟩

end Host

end JniLink
