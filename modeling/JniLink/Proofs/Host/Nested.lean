import JniLink.Proofs.Host.Comment
import JniLink.Proofs.Text.Marked

/-!
# Comments inside comments

Kotlin's block comments nest: the sign that opens one counts inside another, and the comment ends where
all of them are closed. The reader of host sources has one pass for both languages, in which a comment
ends at the first closing sign. So a comment whose text is nested is left out as a whole if and only if
no comment is opened in it. Otherwise what stands behind its first closing sign is code, with the
methods that are commented out there, and so is the last sign.
-/

namespace JniLink.Host

open JniLink.Text

/-- How many comments are open behind a text, if `depth` are open in front of it; `none` if one is
closed that was not opened. No character belongs to two signs. -/
def depthAfter? : Nat → List Char → Option Nat
  | depth, '/' :: '*' :: r => depthAfter? (depth + 1) r
  | 0, '*' :: '/' :: _ => none
  | depth + 1, '*' :: '/' :: r => depthAfter? depth r
  | depth, _ :: r => depthAfter? depth r
  | depth, [] => some depth

/-- Every comment that is opened in the text is closed in it, and no other is. -/
def IsNested (w : List Char) : Prop :=
  depthAfter? 0 w = some 0

instance decidableIsNested (w : List Char) : Decidable (IsNested w) :=
  inferInstanceAs (Decidable (_ = _))

/-- A sign with which a text does not begin stands behind its first character. -/
theorem isInfix_of_isInfix_cons {c d e : Char} {r : List Char}
    (h : ∀ r', c = d → r = e :: r' → False) (hin : [d, e] <:+: c :: r) : [d, e] <:+: r := by
  rcases List.infix_cons_iff.mp hin with ⟨r', hr⟩ | hin
  · rw [List.cons_append, List.cons.injEq] at hr
    exact (h r' hr.1.symm hr.2.symm).elim
  · exact hin

theorem notInfix_of_cons_cons {c d : Char} {s r : List Char} (h : ¬ s <:+: c :: d :: r) :
    ¬ s <:+: r :=
  fun hin => h (hin.trans (List.suffix_append [c, d] r).isInfix)

/-- Where nothing is closed, at least as many comments are open behind the text as in front. -/
theorem le_of_depthAfter? {depth n : Nat} {w : List Char} (hclose : ¬ ['*', '/'] <:+: w)
    (h : depthAfter? depth w = some n) : depth ≤ n := by
  fun_induction depthAfter? depth w with
  -- a comment is opened here
  | case1 depth r ih => exact Nat.le_of_succ_le (ih (notInfix_of_cons_cons hclose) h)
  | case2 r => cases h
  | case3 depth r ih => exact absurd (List.prefix_append ['*', '/'] r).isInfix hclose
  | case4 depth c r _ _ _ ih => exact ih (fun hin => hclose (List.infix_cons hin)) h
  | case5 depth => exact (Option.some.inj h).le

/-- A comment that is opened and never closed is open behind the text. -/
theorem lt_of_depthAfter? {depth n : Nat} {w : List Char} (hopen : ['/', '*'] <:+: w)
    (hclose : ¬ ['*', '/'] <:+: w) (h : depthAfter? depth w = some n) : depth < n := by
  fun_induction depthAfter? depth w with
  | case1 depth r ih => exact le_of_depthAfter? (notInfix_of_cons_cons hclose) h
  | case2 r => cases h
  | case3 depth r ih => exact absurd (List.prefix_append ['*', '/'] r).isInfix hclose
  | case4 depth c r hsign _ _ ih =>
    have hrest : ['/', '*'] <:+: r := isInfix_of_isInfix_cons hsign hopen
    exact ih hrest (fun hin => hclose (List.infix_cons hin)) h
  | case5 depth => exact absurd (List.infix_nil.mp hopen) (List.cons_ne_nil _ _)

/-- Where nothing is opened, nothing can be closed. -/
theorem notInfix_of_depthAfter? {n : Nat} {w : List Char} (hopen : ¬ ['/', '*'] <:+: w)
    (h : depthAfter? 0 w = some n) : ¬ ['*', '/'] <:+: w := by
  generalize hdepth : 0 = depth at h
  fun_induction depthAfter? depth w with
  | case1 depth r ih => exact absurd (List.prefix_append ['/', '*'] r).isInfix hopen
  | case2 r => cases h
  -- none is open that could be closed
  | case3 depth r ih => cases hdepth
  | case4 depth c r _ hzero hsucc ih =>
    have hrest : ¬ ['*', '/'] <:+: r := ih (fun hin => hopen (List.infix_cons hin)) hdepth h
    exact fun hin => hrest (isInfix_of_isInfix_cons (fun r' => hzero r' hdepth.symm) hin)
  | case5 depth => exact fun hin => absurd (List.infix_nil.mp hin) (List.cons_ne_nil _ _)

/-- A nested text has a closing sign exactly if it has an opening one. -/
theorem IsNested.isInfix_iff {w : List Char} (h : IsNested w) :
    ['/', '*'] <:+: w ↔ ['*', '/'] <:+: w := by
  constructor
  · intro hopen
    by_contra hclose
    exact (lt_of_depthAfter? hopen hclose h).ne rfl
  · intro hclose
    by_contra hopen
    exact notInfix_of_depthAfter? hopen h hclose

/-! ## The comment in a source -/

/-- The line feeds of a text. -/
def feeds (w : String) : String :=
  String.ofList (w.toList.filter (· = '\n'))

section Source

variable {p : String} (h : Mode.after .code p.toList = .code)
include h

theorem stripComments_feeds (w q : String) :
    stripComments (p ++ feeds w ++ q).toList =
      stripComments p.toList ++ (w.toList.filter (· = '\n') ++ stripComments q.toList) := by
  have hcut : (p ++ feeds w ++ q).toList =
      p.toList ++ (w.toList.filter (· = '\n') ++ q.toList) := by
    simp [feeds]
  have hplain : ∀ c ∈ w.toList.filter (· = '\n'), IsPlain c := by
    intro c hc
    obtain rfl : c = '\n' := of_decide_eq_true (List.mem_filter.mp hc).2
    decide
  have hfeeds : stripComments (w.toList.filter (· = '\n') ++ q.toList) =
      w.toList.filter (· = '\n') ++ stripComments q.toList :=
    stripFrom_code_append hplain q.toList
  rw [hcut, stripComments_append h, hfeeds]

/-- The comment ends at its first closing sign. -/
theorem ofText_blockComment (language : Language) {w : String} (hw : ¬ "*/".toList <:+: w.toList)
    (q : String) :
    HostSource.ofText language (p ++ "/*" ++ w ++ "*/" ++ q) =
      HostSource.ofText language (p ++ feeds w ++ q) := by
  rw [HostSource.ofText, HostSource.ofText, stripComments_blockComment h q hw,
    stripComments_feeds h]

/-- A nested comment is left out as a whole if no comment is opened in it. Otherwise it ends at the first
closing sign, and the source is read as one with the rest of the comment, its last sign included, in the
code. -/
theorem ofText_nestedComment (language : Language) {w : String} (hw : IsNested w.toList)
    (q : String) :
    (¬ "/*".toList <:+: w.toList →
      HostSource.ofText language (p ++ "/*" ++ w ++ "*/" ++ q) =
        HostSource.ofText language (p ++ feeds w ++ q)) ∧
    ("/*".toList <:+: w.toList → ∃ a b : String, w = a ++ "*/" ++ b ∧
      ¬ "*/".toList <:+: a.toList ∧
      HostSource.ofText language (p ++ "/*" ++ w ++ "*/" ++ q) =
        HostSource.ofText language (p ++ feeds a ++ (b ++ "*/" ++ q))) := by
  constructor
  · intro hopen
    exact ofText_blockComment h language (fun hclose => hopen (hw.isInfix_iff.mpr hclose)) q
  · intro hopen
    obtain ⟨a, b, hcut⟩ := exists_cut?_of_isInfix (hw.isInfix_iff.mp hopen)
    have hsplit : w = String.ofList a ++ "*/" ++ String.ofList b := by
      rw [← String.toList_inj, append_of_cut? hcut]
      simp
    have hfront : ¬ ['*', '/'] <:+: a := not_isInfix_front_of_cut? (by decide) hcut
    have hfirst : ¬ "*/".toList <:+: (String.ofList a).toList := by
      have hlist : (String.ofList a).toList = a := String.toList_ofList
      rwa [hlist]
    refine ⟨String.ofList a, String.ofList b, hsplit, hfirst, ?_⟩
    have hread := ofText_blockComment h language hfirst (String.ofList b ++ "*/" ++ q)
    rw [← hread, hsplit]
    simp only [String.append_assoc]

end Source

/-- The sign in a literal opens no comment. The comment behind it holds another one, and a function that
is commented out; without the inner comment the function is not read. -/
theorem ofText_nestedComment_function :
    let p := "class C \x7b val s = \"/*\"\n"
    let w := " off /* two\n lines **/\nexternal fun f()\n"
    let w' := " off\nexternal fun f()\n"
    let q := "\nexternal fun g()\n\x7d"
    Mode.after .code p.toList = .code ∧ IsNested w.toList ∧ IsNested w'.toList ∧
      (∃ a b : String, w = a ++ "*/" ++ b ∧ ¬ "*/".toList <:+: a.toList ∧
        HostSource.ofText .kotlin (p ++ "/*" ++ w ++ "*/" ++ q) =
          HostSource.ofText .kotlin (p ++ feeds a ++ (b ++ "*/" ++ q))) ∧
      HostSource.ofText .kotlin (p ++ "/*" ++ w' ++ "*/" ++ q) =
        HostSource.ofText .kotlin (p ++ feeds w' ++ q) := by
  intro p w w' q
  have h : Mode.after .code p.toList = .code := by decide +kernel
  have hw : IsNested w.toList := by decide +kernel
  have hw' : IsNested w'.toList := by decide +kernel
  exact ⟨h, hw, hw', (ofText_nestedComment h .kotlin hw q).2 (by decide +kernel),
    (ofText_nestedComment h .kotlin hw' q).1 (by decide +kernel)⟩

/-- In Kotlin the whole of this comment is one, and `f` is commented out in it. -/
theorem ofText_nestedComment_commented_out :
    ∃ p w q : String, Mode.after .code p.toList = .code ∧ IsNested w.toList ∧
      (HostSource.ofText .kotlin (p ++ "/*" ++ w ++ "*/" ++ q)).map (·.methods.map (·.name)) =
        .ok ["f", "g"] ∧
      (HostSource.ofText .kotlin (p ++ feeds w ++ q)).map (·.methods.map (·.name)) = .ok ["g"] :=
  ⟨"class C \x7b\n", " /* a */\nexternal fun f()\n", "\nexternal fun g()\n\x7d\n",
    by decide +kernel, by decide +kernel, by decide +kernel, by decide +kernel⟩

end JniLink.Host
