import JniLink.Proofs.Host.Declarations

/-!
# The initializer that loads a library

The name of a library stands between the only two double quotes of generated text, so exactly that
name is read as the library that is loaded. The scanner does not know that it reads a literal,
though: it finds native functions in the name of a library as it does anywhere else. Whether it finds
any depends on nothing but that name.
-/

namespace JniLink.Host

open JniLink.Text

/-! ## The text of the initializer -/

/-- The initializer up to the call. -/
def beforeLoad (language : Language) (indent : List Char) : List Char :=
  match language with
  | .kotlin => indent ++ "companion object \x7b\n".toList ++ indent ++ "    init \x7b ".toList
  | .java => indent ++ "static \x7b ".toList

/-- The initializer behind the call. -/
def afterLoad (language : Language) (indent : List Char) : List Char :=
  match language with
  | .kotlin => " \x7d\n".toList ++ indent ++ "\x7d\n".toList
  | .java => "; \x7d\n".toList

/-- The initializer, indented. -/
def loadText (language : Language) (indent : List Char) (library : String) : List Char :=
  beforeLoad language indent ++ "System.loadLibrary(".toList ++
    ('"' :: library.toList ++ '"' :: ')' :: afterLoad language indent)

theorem loadLines_eq (language : Language) (library : String) :
    loadLines language library = loadText language [] library := by
  cases language <;> rfl

theorem beforeLoad_eq (language : Language) (indent : List Char) :
    ∃ c r, beforeLoad language indent = indent ++ c :: r ∧ isWord c = true := by
  cases language with
  | kotlin => exact ⟨_, _, (List.append_assoc _ _ _).trans (List.append_assoc _ _ _), rfl⟩
  | java => exact ⟨_, _, rfl, rfl⟩

section Indented

variable {language : Language} {indent : List Char}

theorem isPlain_of_mem_beforeLoad (language : Language) (hindent : ∀ c ∈ indent, IsPlain c) :
    ∀ c ∈ beforeLoad language indent, IsPlain c := by
  cases language with
  | kotlin =>
    simp only [beforeLoad, List.forall_mem_append]
    exact ⟨⟨⟨hindent, by decide⟩, hindent⟩, by decide⟩
  | java =>
    simp only [beforeLoad, List.forall_mem_append]
    exact ⟨hindent, by decide⟩

theorem isPlain_of_mem_afterLoad (hindent : ∀ c ∈ indent, IsPlain c) :
    ∀ c ∈ afterLoad language indent, IsPlain c := by
  cases language with
  | kotlin =>
    simp only [afterLoad, List.forall_mem_append]
    exact ⟨⟨by decide, hindent⟩, by decide⟩
  | java => exact (by decide : ∀ c ∈ "; \x7d\n".toList, IsPlain c)

theorem apart_beforeLoad (hindent : ∀ c ∈ indent, isBlank c = true) :
    Apart (nativeWord language) (beforeLoad language indent) := by
  have hblank := apart_nativeWord_of_blank hindent language
  cases language with
  | kotlin => exact ((hblank.append (by decide)).append hblank).append (by decide)
  | java => exact hblank.append (by decide)

theorem apart_afterLoad (hindent : ∀ c ∈ indent, isBlank c = true) :
    Apart (nativeWord language) (afterLoad language indent) := by
  have hblank := apart_nativeWord_of_blank hindent language
  cases language with
  | kotlin => exact (Apart.append (by decide) hblank).append (by decide)
  | java => exact (by decide : Apart "native".toList "; \x7d\n".toList)

end Indented

/-- Behind a line the initializer begins with a word. -/
theorem head?_trimStart_beforeLoad {indent : List Char} (hindent : ∀ c ∈ indent, isBlank c = true)
    (language : Language) (t : List Char) :
    (trimStart (['\n'] ++ (beforeLoad language indent ++ t))).head? ≠ some ':' := by
  obtain ⟨c, r, hr, hc⟩ := beforeLoad_eq language indent
  rw [hr, List.append_assoc, trimStart_append (by decide), trimStart_append hindent,
    List.cons_append, trimStart_cons (isBlank_of_isWord hc), List.head?_cons, ne_eq,
    Option.some.injEq]
  exact ne_of_isWord hc (by decide)

/-- A library name in a literal is not touched when comments are dropped. -/
theorem stripFrom_loadText {language : Language} {indent : List Char} {library : String}
    (hindent : ∀ c ∈ indent, IsPlain c) (hlibrary : ∀ c ∈ library.toList, c ≠ '"' ∧ c ≠ '\\')
    (t : List Char) :
    stripFrom .code (loadText language indent library ++ t) =
      loadText language indent library ++ stripFrom .code t := by
  have hfront : ∀ c ∈ beforeLoad language indent ++ "System.loadLibrary(".toList, IsPlain c :=
    List.forall_mem_append.mpr ⟨isPlain_of_mem_beforeLoad language hindent, by decide⟩
  have hback : ∀ c ∈ ')' :: afterLoad language indent, IsPlain c :=
    List.forall_mem_cons.mpr ⟨by decide, isPlain_of_mem_afterLoad hindent⟩
  have hcut (t : List Char) : loadText language indent library ++ t =
      beforeLoad language indent ++ "System.loadLibrary(".toList ++
        ('"' :: library.toList ++ '"' :: (')' :: afterLoad language indent ++ t)) := by
    simp only [loadText, List.append_assoc, List.cons_append]
  rw [hcut, hcut, stripFrom_code_append hfront, stripFrom_literal hlibrary,
    stripFrom_code_append hback]

/-! ## Native functions in the name of a library -/

/-- The initializer that loads a library declares no native function itself: nothing in the name of
the library is taken for one. -/
def Silent (language : Language) (library : String) : Prop :=
  allMatches (HostSource.native language) (some '\n') 0
    (stripComments (loadLines language library ++ "\x7d\n".toList)) = []

instance decidableSilent (language : Language) (library : String) :
    Decidable (Silent language library) :=
  inferInstanceAs (Decidable (_ = _))

/-- Whether a native function is read before a call does not depend on what is behind the call. -/
theorem isSome_native_append_afterLoad (language : Language) (before : Option Char)
    (a indent indent' t t' : List Char) :
    (HostSource.native language before (a ++ ')' :: (afterLoad language indent ++ t))).isSome =
      (HostSource.native language before
        (a ++ ')' :: (afterLoad language indent' ++ t'))).isSome := by
  cases language with
  | kotlin => exact isSome_kotlinNative_append_cons before a _ _
  | java => exact isSome_javaNative_append_cons before a _ _

theorem allMatches_native_loadText_eq_nil_iff {language : Language} {before : Option Char}
    {indent t : List Char} {library : String} (hindent : ∀ c ∈ indent, isBlank c = true)
    (ht : Apart (nativeWord language) t) :
    allMatches (HostSource.native language) before 0 (loadText language indent library ++ t) = [] ↔
      ReadsNothing (HostSource.native language) (some '"') library.toList
        ('"' :: ')' :: (afterLoad language [] ++ [])) := by
  have hcut : loadText language indent library ++ t =
      beforeLoad language indent ++ "System.loadLibrary(\"".toList ++ (library.toList ++
        ('"' :: ')' :: (afterLoad language indent ++ t))) := by
    have hmark : "System.loadLibrary(\"".toList = "System.loadLibrary(".toList ++ ['"'] := rfl
    simp only [loadText, hmark, List.append_assoc, List.cons_append, List.nil_append]
  have hfront : Apart (nativeWord language)
      (beforeLoad language indent ++ "System.loadLibrary(\"".toList) :=
    (apart_beforeLoad hindent).append (by cases language <;> decide)
  have hmarks : Apart (nativeWord language) ['"', ')'] := by
    cases language <;> decide
  have hback : Apart (nativeWord language) ('"' :: ')' :: (afterLoad language indent ++ t)) :=
    hmarks.append ((apart_afterLoad hindent).append ht)
  have hlast : lastOr before (beforeLoad language indent ++ "System.loadLibrary(\"".toList) =
      some '"' := by
    rw [lastOr_append]
    rfl
  rw [hcut, allMatches_append (readsNothing_native hfront _ _), hlast, allMatches_eq_nil_iff,
    readsNothing_append_iff, and_iff_left (readsNothing_native hback _ _), readsNothing_iff_forall,
    readsNothing_iff_forall]
  -- no place in the name sees further than the parenthesis that closes the call
  have hplace (front : List Char) (c : Char) (rest : List Char) :
      HostSource.native language (lastOr (some '"') front)
          (c :: rest ++ ('"' :: ')' :: (afterLoad language indent ++ t) ++ [])) = none ↔
        HostSource.native language (lastOr (some '"') front)
          (c :: rest ++ ('"' :: ')' :: (afterLoad language [] ++ []))) = none := by
    have hmark (s : List Char) : c :: rest ++ '"' :: ')' :: s = (c :: rest ++ ['"']) ++ ')' :: s := by
      rw [List.append_assoc]
      rfl
    rw [List.append_nil, hmark, hmark, ← Option.isNone_iff_eq_none, ← Option.isNone_iff_eq_none,
      ← Option.not_isSome, ← Option.not_isSome,
      isSome_native_append_afterLoad language _ _ indent [] t []]
  exact forall₃_congr fun front c rest => imp_congr_right fun _ => hplace front c rest

/-- The initializer is read in the same way wherever it stands. -/
theorem allMatches_native_loadText_eq_nil_iff_silent {language : Language} {before : Option Char}
    {indent t : List Char} {library : String}
    (hlibrary : ∀ c ∈ library.toList, c ≠ '"' ∧ c ≠ '\\') (hindent : ∀ c ∈ indent, isBlank c = true)
    (ht : Apart (nativeWord language) t) :
    allMatches (HostSource.native language) before 0 (loadText language indent library ++ t) = [] ↔
      Silent language library := by
  have hbrace : Apart (nativeWord language) "\x7d\n".toList := by
    cases language <;> decide
  rw [Silent, loadLines_eq, stripComments, stripFrom_loadText (by simp) hlibrary,
    stripFrom_code_eq_self (by decide), allMatches_native_loadText_eq_nil_iff hindent ht,
    allMatches_native_loadText_eq_nil_iff (by simp) hbrace]

theorem native_eq_none_of_notMem {t : List Char} (language : Language) (before : Option Char)
    (h : '(' ∉ t) : HostSource.native language before t = none := by
  cases language with
  | kotlin => exact kotlinNative_eq_none_of_notMem before h
  | java => exact javaNative_eq_none_of_notMem before h

/-- A name without an opening parenthesis declares nothing, whatever else it holds. -/
theorem silent_of_notMem {library : String} (h : '(' ∉ library.toList) (language : Language) :
    Silent language library := by
  have hplain : ∀ c ∈ beforeLoad language [] ++ "System.loadLibrary(".toList, IsPlain c :=
    List.forall_mem_append.mpr ⟨isPlain_of_mem_beforeLoad language (by simp), by decide⟩
  have hfront : Apart (nativeWord language)
      (beforeLoad language [] ++ "System.loadLibrary(".toList) :=
    (apart_beforeLoad (by simp)).append (by cases language <;> decide)
  have hback : '(' ∉ '"' :: library.toList ++
      ('"' :: ')' :: afterLoad language [] ++ "\x7d\n".toList) := by
    have hclosing : '(' ∉ '"' :: ')' :: afterLoad language [] ++ "\x7d\n".toList := by
      cases language <;> decide
    simp only [List.mem_append, List.mem_cons, not_or] at hclosing ⊢
    exact ⟨⟨by decide, h⟩, hclosing⟩
  have hcut : loadLines language library ++ "\x7d\n".toList =
      beforeLoad language [] ++ "System.loadLibrary(".toList ++
        ('"' :: library.toList ++ ('"' :: ')' :: afterLoad language [] ++ "\x7d\n".toList)) := by
    rw [loadLines_eq, loadText]
    simp only [List.append_assoc]
  rw [Silent, hcut, stripComments, stripFrom_code_append hplain,
    allMatches_append (readsNothing_native hfront _ _), allMatches_eq_nil_iff,
    readsNothing_iff_forall]
  intro front c rest hrest
  refine native_eq_none_of_notMem language _ fun hmem => ?_
  rw [List.append_nil] at hmem
  rcases mem_stripFrom (hrest ▸ List.mem_append_right front hmem) with hmem | hslash
  · exact hback hmem
  · cases hslash

/-! ## The name of the library -/

theorem libraryLoad_eq_none_of_notMem {t : List Char} (before : Option Char) (h : '"' ∉ t) :
    libraryLoad before t = none := by
  unfold libraryLoad
  cases hcall : stripStart? "System.loadLibrary(".toList t with
  | none => rfl
  | some r =>
    rw [stripStart?_eq_some_iff] at hcall
    have hr : '"' ∉ trimStart r := fun hmem =>
      h (hcall ▸ List.mem_append_right _ ((List.dropWhile_suffix isBlank).subset hmem))
    rw [Option.bind_eq_bind, Option.bind_some, stripStart?_eq_none_of_mem List.mem_cons_self hr]
    rfl

/-- Before a quote mark the call is read, or nothing at all. -/
theorem libraryLoad_eq_none {a : List Char} (before : Option Char) (h : '"' ∉ a) (hne : a ≠ [])
    (t : List Char) :
    libraryLoad before (a ++ "System.loadLibrary(".toList ++ '"' :: t) = none := by
  unfold libraryLoad
  rw [stripStart?_append_cons (by decide)]
  cases hcall : stripStart? "System.loadLibrary(".toList (a ++ "System.loadLibrary(".toList) with
  | none => rfl
  | some r =>
    rw [stripStart?_eq_some_iff] at hcall
    -- what is behind the words ends with a parenthesis, so it is not blank
    have hlast : '(' ∈ r := by
      have hlength := congrArg List.length hcall
      rw [List.length_append, List.length_append, Nat.add_comm, Nat.add_left_cancel_iff] at hlength
      have hr : r ≠ [] := fun hnil => hne (List.length_eq_zero_iff.mp (by rw [hlength, hnil]; rfl))
      have hends := congrArg List.getLast? hcall
      rw [List.getLast?_append_of_ne_nil _ (by decide), List.getLast?_append_of_ne_nil _ hr] at hends
      exact List.mem_of_getLast? hends.symm
    obtain ⟨c, s, hs⟩ : ∃ c s, trimStart r = c :: s := by
      refine List.exists_cons_of_ne_nil fun hnil => ?_
      exact absurd (List.dropWhile_eq_nil_iff.mp hnil _ hlast) (by decide)
    have hc : '"' ≠ c := by
      rintro rfl
      have hmem : '"' ∈ trimStart r := by
        rw [hs]
        exact List.mem_cons_self
      have hmem : '"' ∈ r := (List.dropWhile_suffix isBlank).subset hmem
      have htext : '"' ∈ a ++ "System.loadLibrary(".toList := hcall ▸ List.mem_append_right _ hmem
      exact (List.mem_append.mp htext).elim h (by decide)
    rw [Option.map_some, Option.bind_eq_bind, Option.bind_some, trimStart_append_cons (by decide), hs,
      List.cons_append, stripStart?, if_neg hc]
    rfl

theorem libraryLoad_append {library : List Char} (before : Option Char) (hlibrary : '"' ∉ library)
    (hne : library ≠ []) (back : List Char) :
    libraryLoad before ("System.loadLibrary(".toList ++ '"' :: (library ++ '"' :: ')' :: back)) =
      some (library, back) := by
  unfold libraryLoad
  rw [stripStart?_eq_some_iff.mpr rfl, Option.bind_eq_bind, Option.bind_some,
    trimStart_cons (by decide), stripStart?_eq_some_iff.mpr List.singleton_append.symm]
  simp only [Option.bind_eq_bind, Option.bind_some, upTo?_append_cons hlibrary, if_neg hne]
  rfl

/-- The library of the one call is read, and no other. -/
theorem allMatches_libraryLoad {front library back : List Char} (before : Option Char)
    (hfront : '"' ∉ front) (hlibrary : '"' ∉ library) (hne : library ≠ []) (hback : '"' ∉ back) :
    allMatches libraryLoad before 0
        (front ++ ("System.loadLibrary(".toList ++ '"' :: (library ++ '"' :: ')' :: back))) =
      [library] := by
  have hnothing : ReadsNothing libraryLoad before front
      ("System.loadLibrary(".toList ++ '"' :: (library ++ '"' :: ')' :: back)) := by
    rw [readsNothing_iff_forall]
    rintro front' c rest rfl
    rw [← List.append_assoc]
    refine libraryLoad_eq_none _ (fun hmem => ?_) (List.cons_ne_nil c rest) _
    exact hfront (List.mem_append_right front' hmem)
  have hcut : "System.loadLibrary(".toList ++ '"' :: (library ++ '"' :: ')' :: back) =
      "System.loadLibrary(".toList ++ '"' :: (library ++ ['"', ')']) ++ back := by
    simp only [List.append_assoc, List.cons_append, List.nil_append]
  have hread := libraryLoad_append (lastOr before front) hlibrary hne back
  have hrest (before : Option Char) : allMatches libraryLoad before 0 back = [] := by
    rw [allMatches_eq_nil_iff, readsNothing_iff_forall]
    rintro front' c rest rfl
    rw [List.append_nil]
    exact libraryLoad_eq_none_of_notMem _ fun hmem => hback (List.mem_append_right front' hmem)
  rw [allMatches_append hnothing]
  rw [hcut] at hread ⊢
  rw [allMatches_of_eq_some (by simp) hread, hrest]

end JniLink.Host
