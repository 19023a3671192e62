import JniLink.Host.Block
import JniLink.Host.Source
import JniLink.Proofs.Except
import JniLink.Proofs.Host.Pattern
import JniLink.Proofs.JvmType.Spelling

/-!
# Signatures in host sources are read back, or refused

The parameter list and the result type of a declaration are read as the signature that they were
written for, or the declaration is refused because a class in them is not known. Each parameter is
read by itself, so the law is one for a parameter, carried over the list.
-/

namespace JniLink.Host

open JniLink.Text HostSource

/-! ## Answers and refusals -/

/-- What is read is `a`, or it is refused for a reason. -/
def ReadsOr {ε α : Type} (read : Except ε α) (a : α) (reason : Prop) : Prop :=
  read = .ok a ∨ (∃ e, read = .error e) ∧ reason

theorem ReadsOr.imp {ε α : Type} {read : Except ε α} {a : α} {p q : Prop} (h : ReadsOr read a p)
    (himp : p → q) : ReadsOr read a q :=
  Or.imp id (fun ⟨he, hp⟩ => ⟨he, himp hp⟩) h

theorem ReadsOr.bind {ε α β : Type} {read : Except ε α} {a : α} {f : α → Except ε β} {b : β}
    {p : Prop} (h : ReadsOr read a p) (hf : ReadsOr (f a) b p) : ReadsOr (read >>= f) b p := by
  rcases h with rfl | ⟨⟨e, rfl⟩, hp⟩
  · exact hf
  · exact .inr ⟨⟨e, rfl⟩, hp⟩

theorem readsOr_pure {ε α : Type} (a : α) (p : Prop) : ReadsOr (pure a : Except ε α) a p :=
  .inl rfl

/-- Where each element is read as it should be or refused for a reason, so is the list. -/
theorem readsOr_mapM {ε α β : Type} {f : α → Except ε β} {g : α → β} {p : α → Prop} {l : List α}
    (h : ∀ a ∈ l, ReadsOr (f a) (g a) (p a)) : ReadsOr (l.mapM f) (l.map g) (∃ a ∈ l, p a) := by
  induction l with
  | nil => exact readsOr_pure _ _
  | cons a l ih =>
    rw [List.mapM_cons]
    refine ((h a List.mem_cons_self).imp fun hp => ⟨a, List.mem_cons_self, hp⟩).bind ?_
    refine ((ih fun b hb => h b (List.mem_cons_of_mem a hb)).imp ?_).bind (readsOr_pure _ _)
    exact fun ⟨b, hb, hp⟩ => ⟨b, List.mem_cons_of_mem a hb, hp⟩

/-! ## Lists between commas -/

theorem map_trim_splitWhere_space (t : List Char) :
    (splitWhere (· == ',') (' ' :: t)).map trim = (splitWhere (· == ',') t).map trim := by
  obtain ⟨piece, pieces, ht, hspace⟩ := splitWhere_cons_of_neg (p := (· == ',')) (c := ' ') rfl t
  rw [hspace, ht, List.map_cons, List.map_cons]
  rfl

/-- Parts without commas are found between the commas that they were joined with. -/
theorem filter_splitWhere_joinWith {parts : List (List Char)}
    (h : ∀ part ∈ parts, part ≠ [] ∧ ',' ∉ part ∧ trim part = part) :
    ((splitWhere (· == ',') (joinWith ", ".toList parts)).map trim).filter (· ≠ []) = parts := by
  induction parts with
  | nil => rfl
  | cons part parts ih =>
    obtain ⟨hne, hcomma, htrim⟩ := h part List.mem_cons_self
    have hpart : splitWhere (· == ',') part = [part] :=
      splitWhere_eq_singleton fun c hc => by simpa using ne_of_mem_of_not_mem hc hcomma
    have hrest := ih fun q hq => h q (List.mem_cons_of_mem part hq)
    cases parts with
    | nil => simp [joinWith, hpart, htrim, hne]
    | cons part' parts =>
      have hcut : joinWith ", ".toList (part :: part' :: parts) =
          part ++ ',' :: ' ' :: joinWith ", ".toList (part' :: parts) := by
        rw [joinWith_cons_cons, List.append_assoc]
        rfl
      rw [hcut, splitWhere_append_cons rfl, hpart, List.map_append, map_trim_splitWhere_space,
        List.filter_append, hrest]
      simp [htrim, hne]

/-! ## One parameter -/

theorem spaceDots_eq_self {t : List Char} (h : JvmType.DotsApart t) : spaceDots t = t := by
  fun_induction spaceDots t with
  | case1 r ih => exact absurd ⟨rfl, rfl⟩ (List.isChain_cons_cons.mp h).1
  | case2 c r _ ih => rw [ih (List.isChain_cons.mp h).2]
  | case3 => rfl

theorem isWord_of_mem_paramName {index : Nat} {c : Char} (h : c ∈ paramName index) :
    isWord c = true := by
  have harg : ∀ c ∈ "arg".toList, isWord c = true := by decide
  rcases List.mem_append.mp h with h | h
  · exact harg c h
  · exact isWord_of_mem_toString h

theorem isBlank_of_mem_paramName {index : Nat} {c : Char} (h : c ∈ paramName index) :
    isBlank c = false :=
  isBlank_of_isWord (isWord_of_mem_paramName h)

/-- A parameter's name begins as no modifier does. -/
theorem paramName_ne {c : Char} (h : c ≠ 'a') (index : Nat) (r : List Char) :
    paramName index ≠ c :: r := by
  intro heq
  cases heq
  exact h rfl

/-- The modifier is not a type. -/
theorem ofJava?_final : JvmType.ofJava? "final".toList = none := by
  have hword : ∀ c ∈ "final".toList, isWord c = true := by decide
  rw [JvmType.ofJava?_eq_ofJavaName? (fun c hc => .inl (hword c hc))
    (JvmType.dotsApart_of_notMem (by decide))]
  rfl

section Param

variable {t : JvmType} {method : List Char} {index : Nat}

theorem resolve_spelling {language : Language} (h : t.ReadsBack language) :
    ReadsOr (resolve language method (t.spelling language).toList) t
      (¬ t.AllNames (IsKnown language)) := by
  unfold resolve
  rcases h with hsome | ⟨hnone, hunknown⟩
  · rw [hsome]
    exact .inl rfl
  · rw [hnone]
    exact .inr ⟨⟨_, rfl⟩, hunknown⟩

variable (hnames : t.AllNames IsBinaryName)
include hnames

theorem kotlinParam_spellParam (h : t.ReadsBack .kotlin) :
    ReadsOr (kotlinParam method (spellParam .kotlin (t, index))) t
      (¬ t.AllNames (IsKnown .kotlin)) := by
  have hcolon : ':' ∉ paramName index := fun hmem =>
    absurd (isWord_of_mem_paramName hmem) (by decide)
  have hvararg : "vararg".toList ∉ words (paramName index) := by
    rw [words_eq_singleton (fun _ => isBlank_of_mem_paramName) (List.cons_ne_nil _ _),
      List.mem_singleton]
    exact (paramName_ne (by decide) _ _).symm
  have hequals : '=' ∉ (t.spelling .kotlin).toList :=
    JvmType.notMem_spelling hnames (by decide) (by decide)
  have hdefault : '=' ∉ ' ' :: t.kotlinName.toList := by
    rw [List.mem_cons, not_or]
    exact ⟨by decide, hequals⟩
  have htype : trim ((' ' :: t.kotlinName.toList).takeWhile (· != '=')) = t.kotlinName.toList := by
    rw [List.takeWhile_eq_self_iff.mpr fun c hc => by simpa using ne_of_mem_of_not_mem hc hdefault]
    exact trim_eq_self (JvmType.isBlank_of_mem_spelling .kotlin hnames)
  have hcut : upTo? ':' (spellParam .kotlin (t, index)) =
      some (paramName index, ' ' :: t.kotlinName.toList) := by
    rw [spellParam, List.append_assoc]
    exact upTo?_append_cons hcolon _
  rw [kotlinParam, hcut]
  simp only [htype, if_neg hvararg]
  exact (resolve_spelling h).bind (readsOr_pure _ _)

theorem words_spellParam_java :
    words (spaceDots (spellParam .java (t, index))) = [t.javaName.toList, paramName index] := by
  have hdot : '.' ∉ ' ' :: paramName index := by
    rintro (_ | ⟨_, hmem⟩)
    exact absurd (isWord_of_mem_paramName hmem) (by decide)
  have hdots : JvmType.DotsApart (t.javaName.toList ++ ' ' :: paramName index) :=
    (JvmType.dotsApart_javaName hnames).append hdot
  rw [spellParam, List.append_assoc]
  change words (spaceDots (t.javaName.toList ++ ' ' :: paramName index)) = _
  rw [spaceDots_eq_self hdots]
  exact words_append_space (JvmType.isBlank_of_mem_spelling .java hnames)
    (JvmType.spelling_ne_nil .java hnames) (fun _ => isBlank_of_mem_paramName) (List.cons_ne_nil _ _)

omit hnames in
/-- The word `final` is taken for a modifier, and no known class is spelled so. -/
theorem not_isKnown_of_final (h : t.ReadsBack .java) (hfinal : t.javaName.toList = "final".toList) :
    ¬ t.AllNames (IsKnown .java) := by
  have hread : JvmType.ofSpelling? .java (t.spelling .java).toList = none := by
    rw [JvmType.spelling, hfinal]
    exact ofJava?_final
  rcases h with hsome | ⟨-, hunknown⟩
  · rw [hread] at hsome
    cases hsome
  · exact hunknown

theorem javaParam_spellParam (h : t.ReadsBack .java) :
    ReadsOr (javaParam method (spellParam .java (t, index))) t (¬ t.AllNames (IsKnown .java)) := by
  have hkept {w : List Char} (hw : w ≠ "final".toList) (r : List (List Char)) :
      (w :: r).filter (· ≠ "final".toList) = w :: r.filter (· ≠ "final".toList) :=
    List.filter_cons_of_pos (by rwa [decide_eq_true_eq])
  have hname : paramName index ≠ "final".toList := paramName_ne (by decide) _ _
  unfold javaParam
  rw [words_spellParam_java hnames]
  by_cases hfinal : t.javaName.toList = "final".toList
  · right
    rw [hfinal, List.filter_cons_of_neg (by decide), hkept hname, List.filter_nil]
    exact ⟨⟨_, rfl⟩, not_isKnown_of_final h hfinal⟩
  · rw [hkept hfinal, hkept hname, List.filter_nil]
    exact resolve_spelling h

theorem param_spellParam {language : Language} (h : t.ReadsBack language) :
    ReadsOr (param language method (spellParam language (t, index))) t
      (¬ t.AllNames (IsKnown language)) := by
  cases language with
  | kotlin => exact kotlinParam_spellParam hnames h
  | java => exact javaParam_spellParam hnames h

/-- A parameter is written with the characters of names and with these signs. -/
theorem mem_spellParam {language : Language} {c : Char} (h : c ∈ spellParam language (t, index)) :
    IsNameChar c ∨ c ∈ "<>[]: ".toList := by
  have htype : c ∈ (t.spelling language).toList → IsNameChar c ∨ c ∈ "<>[]: ".toList := by
    have hsigns : ∀ c ∈ JvmType.signs language, c ∈ "<>[]: ".toList := by
      cases language <;> decide
    exact fun hc => (JvmType.mem_spelling hnames c hc).imp id (hsigns c)
  have hname : c ∈ paramName index → IsNameChar c ∨ c ∈ "<>[]: ".toList :=
    fun hc => .inl (.inl (isWord_of_mem_paramName hc))
  have hcolon : ∀ c ∈ ": ".toList, c ∈ "<>[]: ".toList := by decide
  have hspace : ∀ c ∈ " ".toList, c ∈ "<>[]: ".toList := by decide
  cases language with
  | kotlin =>
    rcases List.mem_append.mp h with h | h
    · exact (List.mem_append.mp h).elim hname fun hc => .inr (hcolon c hc)
    · exact htype h
  | java =>
    rcases List.mem_append.mp h with h | h
    · exact (List.mem_append.mp h).elim htype fun hc => .inr (hspace c hc)
    · exact hname h

theorem trim_spellParam (language : Language) :
    trim (spellParam language (t, index)) = spellParam language (t, index) := by
  have hname : ∀ c ∈ paramName index, isBlank c = false := fun _ => isBlank_of_mem_paramName
  have htype := JvmType.isBlank_of_mem_spelling language hnames
  have hne := JvmType.spelling_ne_nil language hnames
  cases language with
  | kotlin => exact trim_append_eq_self hname (List.cons_ne_nil _ _) _ htype hne
  | java => exact trim_append_eq_self htype hne _ hname (List.cons_ne_nil _ _)

end Param

theorem spellParam_ne_nil (language : Language) (param : JvmType × Nat) :
    spellParam language param ≠ [] := by
  cases language with
  | kotlin => exact List.cons_ne_nil _ _
  | java => exact List.append_ne_nil_of_right_ne_nil _ (List.cons_ne_nil _ _)

/-! ## Parameter lists and signatures -/

section Params

variable {language : Language} {types : List JvmType}
  (hnames : ∀ t ∈ types, t.AllNames IsBinaryName)
include hnames

theorem mem_spellParams {c : Char} (h : c ∈ spellParams language types) :
    IsNameChar c ∨ c ∈ "<>[]: ,".toList := by
  have hsep : ∀ c ∈ ", ".toList, c ∈ "<>[]: ,".toList := by decide
  have hsigns : ∀ c ∈ "<>[]: ".toList, c ∈ "<>[]: ,".toList := by decide
  rcases mem_joinWith h with h | ⟨part, hpart, h⟩
  · exact .inr (hsep c h)
  · obtain ⟨⟨t, index⟩, hx, rfl⟩ := List.mem_map.mp hpart
    exact (mem_spellParam (hnames t (List.fst_mem_of_mem_zipIdx hx)) h).imp id (hsigns c)

theorem params_spellParams (h : ∀ t ∈ types, t.ReadsBack language) (method : List Char) :
    ReadsOr (params language method (spellParams language types)) types
      (∃ t ∈ types, ¬ t.AllNames (IsKnown language)) := by
  have hparts : ∀ part ∈ types.zipIdx.map (spellParam language),
      part ≠ [] ∧ ',' ∉ part ∧ trim part = part := by
    intro part hpart
    obtain ⟨⟨t, index⟩, hx, rfl⟩ := List.mem_map.mp hpart
    have ht := hnames t (List.fst_mem_of_mem_zipIdx hx)
    refine ⟨spellParam_ne_nil _ _, fun hcomma => ?_, trim_spellParam ht language⟩
    rcases mem_spellParam ht hcomma with hname | hsign
    · exact hname.ne (by decide) (by decide) (by decide) rfl
    · exact absurd hsign (by decide)
  have hparam : ∀ x ∈ types.zipIdx, ReadsOr (param language method (spellParam language x)) x.1
      (¬ x.1.AllNames (IsKnown language)) := by
    intro x hx
    have hmem := List.fst_mem_of_mem_zipIdx hx
    exact param_spellParam (hnames x.1 hmem) (h x.1 hmem)
  have hread := readsOr_mapM hparam
  rw [List.zipIdx_map_fst] at hread
  unfold params
  rw [spellParams, filter_splitWhere_joinWith hparts, List.mapM_map]
  exact hread.imp fun ⟨x, hx, hunknown⟩ => ⟨x.1, List.fst_mem_of_mem_zipIdx hx, hunknown⟩

end Params

/-- What a source says of a declaration. -/
def nativeOf (language : Language) (d : Declaration) : Native where
  name := d.name.toList
  params := spellParams language d.signature.params
  ret :=
    if language = .kotlin ∧ d.signature.ret = .void then none
    else some (d.signature.ret.spelling language).toList

/-- The type that a result text stands for; without a text nothing is answered. -/
theorem ret_nativeOf {language : Language} {d : Declaration}
    (h : d.signature.ret.ReadsBack language) :
    ReadsOr
      (match (nativeOf language d).ret with
        | some type => resolve language (nativeOf language d).name type
        | none => .ok .void)
      d.signature.ret (¬ d.signature.ret.AllNames (IsKnown language)) := by
  rw [nativeOf]
  by_cases hvoid : language = .kotlin ∧ d.signature.ret = .void
  · simp only [if_pos hvoid]
    rw [hvoid.2]
    exact .inl rfl
  · simp only [if_neg hvoid]
    exact resolve_spelling h

/-- The signature of a declaration is read back, or refused because a class in it is not known. -/
theorem signature_nativeOf {language : Language} {d : Declaration}
    (hnames : ∀ t ∈ d.signature.params, t.AllNames IsBinaryName)
    (h : ∀ t ∈ d.signature.ret :: d.signature.params, t.ReadsBack language) :
    ReadsOr (signature language (nativeOf language d)) d.signature
      (∃ t ∈ d.signature.ret :: d.signature.params, ¬ t.AllNames (IsKnown language)) := by
  let reason := ∃ t ∈ d.signature.ret :: d.signature.params, ¬ t.AllNames (IsKnown language)
  have hret (hunknown : ¬ d.signature.ret.AllNames (IsKnown language)) : reason :=
    ⟨d.signature.ret, List.mem_cons_self, hunknown⟩
  have hparams (hunknown : ∃ t ∈ d.signature.params, ¬ t.AllNames (IsKnown language)) : reason := by
    obtain ⟨t, ht, hunknown⟩ := hunknown
    exact ⟨t, List.mem_cons_of_mem _ ht, hunknown⟩
  have hret := (ret_nativeOf (h _ List.mem_cons_self)).imp hret
  have hparams := (params_spellParams hnames (fun t ht => h t (List.mem_cons_of_mem _ ht))
    d.name.toList).imp hparams
  unfold signature
  cases language with
  | kotlin => exact hparams.bind (hret.bind (readsOr_pure _ _))
  | java => exact hret.bind (hparams.bind (readsOr_pure _ _))

end JniLink.Host
