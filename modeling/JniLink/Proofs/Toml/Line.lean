import JniLink.Proofs.Text.Match
import JniLink.Proofs.Toml.Value

/-!
# Readers that stop at a line

Names, numbers, dates and strings of one line are read without a look past the line feed: with a line
feed behind the text the reader finds what it finds without, and leaves the line feed and everything
behind it. This is so for failures as well, which counts where one reader is tried after the other.

The law goes through the ways in which readers are put together, so each reader is taken apart along
its own definition.
-/

namespace JniLink.Toml

open JniLink.Text

/-- What was read, with another line behind the rest. -/
def andLine {α : Type} (u : List Char) (found : α × List Char) : α × List Char :=
  (found.1, found.2 ++ '\n' :: u)

/-- A reader that looks no further than a line feed: it reads the same with one behind the text, and
leaves it with everything that stands behind. -/
def StopsAtLine {α : Type} (read : List Char → Option (α × List Char)) : Prop :=
  ∀ t u, read (t ++ '\n' :: u) = (read t).map (andLine u)

section Readers

variable {α β : Type} {read read' : List Char → Option (α × List Char)}

theorem stopsAtLine_pure (a : α) : StopsAtLine fun t => some (a, t) :=
  fun _ _ => rfl

theorem stopsAtLine_none : StopsAtLine fun _ => (none : Option (α × List Char)) :=
  fun _ _ => rfl

theorem StopsAtLine.bind {next : α × List Char → Option (β × List Char)} (h : StopsAtLine read)
    (hnext : ∀ a, StopsAtLine fun t => next (a, t)) : StopsAtLine fun t => (read t).bind next := by
  intro t u
  dsimp only
  rw [h t u]
  cases read t with
  | none => rfl
  | some found => exact hnext found.1 found.2 u

theorem StopsAtLine.strip {word : List Char} (hword : '\n' ∉ word) (h : StopsAtLine read) :
    StopsAtLine fun t => (stripStart? word t).bind read := by
  intro t u
  dsimp only
  rw [stripStart?_append_cons hword]
  cases stripStart? word t with
  | none => rfl
  | some rest => exact h rest u

theorem StopsAtLine.orElse (h : StopsAtLine read) (h' : StopsAtLine read') :
    StopsAtLine fun t => read t <|> read' t := by
  intro t u
  dsimp only
  rw [h t u, h' t u]
  cases read t <;> rfl

end Readers

/-- A text that does not begin with a character does not begin with it when a line stands behind. -/
theorem append_ne_cons {c : Char} {t u : List Char} (hc : c ≠ '\n') (h : ∀ r, t = c :: r → False) :
    ∀ r, t ++ '\n' :: u = c :: r → False := by
  intro r heq
  cases t with
  | nil => exact hc (List.cons.inj heq).1.symm
  | cons d t => exact h t (by rw [(List.cons.inj heq).1])

theorem append_ne_cons_cons {c d : Char} {t u : List Char} (hc : c ≠ '\n') (hd : d ≠ '\n')
    (h : ∀ r, t = c :: d :: r → False) : ∀ r, t ++ '\n' :: u = c :: d :: r → False := by
  intro r heq
  cases t with
  | nil => exact hc (List.cons.inj heq).1.symm
  | cons e t =>
    obtain ⟨rfl, htail⟩ := List.cons.inj heq
    exact append_ne_cons hd (fun r' ht => h r' (congrArg (List.cons _) ht)) r htail

/-! ## Numbers -/

theorem stopsAtLine_digits? {p : Char → Bool} (hp : p '\n' = false) (due : Bool) :
    StopsAtLine (digits? p due) := by
  intro t u
  induction t generalizing due with
  | nil =>
    have hnot : ¬ p '\n' = true := Bool.eq_false_iff.mp hp
    rw [List.nil_append, digits?.eq_2, if_neg hnot]
    cases due <;> rfl
  | cons c t ih =>
    rw [List.cons_append, digits?, digits?, ih, ih]
    split
    · cases digits? p false t <;> rfl
    · split
      · rfl
      · split <;> rfl

theorem sign_append (t u : List Char) :
    sign (t ++ '\n' :: u) = ((sign t).1, (sign t).2 ++ '\n' :: u) := by
  fun_cases sign t with
  | case1 r => rfl
  | case2 r => rfl
  | case3 t hplus hminus =>
    rw [sign.eq_3 _ (append_ne_cons (by decide) hplus) (append_ne_cons (by decide) hminus)]

theorem stopsAtLine_whole? : StopsAtLine whole? := by
  intro t u
  fun_cases whole? t with
  | case1 r => rfl
  | case2 t hzero =>
    rw [whole?.eq_2 _ (append_ne_cons (by decide) hzero)]
    exact stopsAtLine_digits? (by decide) true t u

theorem stopsAtLine_exponent? : StopsAtLine exponent? := by
  intro t u
  cases t with
  | nil => rfl
  | cons c t =>
    rw [List.cons_append, exponent?, exponent?, sign_append,
      stopsAtLine_digits? (by decide) true (sign t).2 u]
    split
    · cases digits? Char.isDigit true (sign t).2 <;> rfl
    · rfl

theorem stopsAtLine_fraction? : StopsAtLine fraction? := by
  intro t u
  fun_cases fraction? t with
  | case1 r =>
    rw [List.cons_append, fraction?, stopsAtLine_digits? (by decide) true r u]
    cases digits? Char.isDigit true r <;> rfl
  | case2 t hpoint => rw [fraction?.eq_2 _ (append_ne_cons (by decide) hpoint)]; rfl

/-- A fraction, and the exponent behind it, if there is one. -/
def fractionTail? (t : List Char) : Option (List Char × List Char) := do
  let (fraction, t) ← fraction? t
  match t with
  | c :: _ =>
    if c = 'e' ∨ c = 'E' then
      let (exponent, t) ← exponent? t
      return (fraction ++ exponent, t)
    else return (fraction, t)
  | [] => return (fraction, t)

theorem stopsAtLine_fractionTail? : StopsAtLine fractionTail? := by
  refine stopsAtLine_fraction?.bind fun fraction => ?_
  intro t u
  cases t with
  | nil => rfl
  | cons c t =>
    dsimp only [List.cons_append]
    split
    · exact stopsAtLine_exponent?.bind (fun exponent => stopsAtLine_pure (fraction ++ exponent))
        (c :: t) u
    · rfl

theorem stopsAtLine_floatTail? : StopsAtLine floatTail? := by
  intro t u
  rw [floatTail?, floatTail?, stopsAtLine_exponent? t u]
  cases exponent? t with
  | some found => rfl
  | none => exact stopsAtLine_fractionTail? t u

theorem stopsAtLine_special (marks : List Char) (word : String) (hword : '\n' ∉ word.toList) :
    StopsAtLine fun t => (stripStart? word.toList t).map fun rest =>
      (Value.float (String.ofList (marks ++ word.toList)), rest) := by
  intro t u
  dsimp only
  rw [stripStart?_append_cons hword]
  cases stripStart? word.toList t <;> rfl

/-- A number behind its sign that has a fraction, an exponent or both. -/
def plainFloat? (marks t : List Char) : Option (Value × List Char) := do
  let (digits, t) ← whole? t
  let (tail, t) ← floatTail? t
  if marks = ['-'] ∨ isFinite digits tail then
    return (.float (String.ofList (marks ++ digits ++ tail)), t)
  else none

theorem stopsAtLine_plainFloat? (marks : List Char) : StopsAtLine (plainFloat? marks) := by
  refine stopsAtLine_whole?.bind fun digits => stopsAtLine_floatTail?.bind fun tail => ?_
  dsimp only
  split
  · exact stopsAtLine_pure _
  · exact stopsAtLine_none

theorem stopsAtLine_float? : StopsAtLine float? := by
  intro t u
  rw [float?, float?, sign_append]
  exact ((stopsAtLine_plainFloat? (sign t).1).orElse
    ((stopsAtLine_special (sign t).1 "inf" (by decide)).orElse
      (stopsAtLine_special (sign t).1 "nan" (by decide)))) (sign t).2 u

theorem stopsAtLine_basedInteger? (base : Nat) {p : Char → Bool} (hp : p '\n' = false) :
    StopsAtLine (basedInteger? base p) := by
  refine (stopsAtLine_digits? hp true).bind fun digits => ?_
  intro t u
  dsimp only
  cases bounded? (numberOf base digits) <;> rfl

/-- A decimal integer behind its sign. -/
def decimal? (marks t : List Char) : Option (Value × List Char) := do
  let (digits, t) ← whole? t
  let value ← bounded? (if marks = ['-'] then -(numberOf 10 digits : Int) else numberOf 10 digits)
  return (value, t)

theorem stopsAtLine_decimal? (marks : List Char) : StopsAtLine (decimal? marks) := by
  refine stopsAtLine_whole?.bind fun digits => ?_
  intro t u
  dsimp only
  cases bounded? (if marks = ['-'] then -(numberOf 10 digits : Int) else numberOf 10 digits) <;> rfl

theorem stopsAtLine_integer? : StopsAtLine integer? := by
  intro t u
  by_cases hx : ∃ r, t = '0' :: 'x' :: r
  · obtain ⟨r, rfl⟩ := hx
    exact stopsAtLine_basedInteger? 16 (by decide) r u
  by_cases ho : ∃ r, t = '0' :: 'o' :: r
  · obtain ⟨r, rfl⟩ := ho
    exact stopsAtLine_basedInteger? 8 (by decide) r u
  by_cases hb : ∃ r, t = '0' :: 'b' :: r
  · obtain ⟨r, rfl⟩ := hb
    exact stopsAtLine_basedInteger? 2 (by decide) r u
  rw [not_exists] at hx ho hb
  rw [integer?.eq_4 t hx ho hb, integer?.eq_4 _ (append_ne_cons_cons (by decide) (by decide) hx)
    (append_ne_cons_cons (by decide) (by decide) ho)
    (append_ne_cons_cons (by decide) (by decide) hb), sign_append]
  exact stopsAtLine_decimal? (sign t).1 (sign t).2 u

/-! ## Dates and times -/

theorem stopsAtLine_field? (width low high : Nat) : StopsAtLine (field? width low high) := by
  intro t u
  unfold field?
  dsimp only
  by_cases hle : width ≤ t.length
  · rw [List.take_append_of_le_length hle, List.drop_append_of_le_length hle]
    split <;> rfl
  · have hlt : t.length < width := Nat.not_le.mp hle
    have hshort : (t.take width).length ≠ width := by
      rw [List.length_take, Nat.min_eq_right (Nat.le_of_lt hlt)]
      exact Nat.ne_of_lt hlt
    have hfeed : ¬ ((t ++ '\n' :: u).take width).all Char.isDigit = true := by
      obtain ⟨n, rfl⟩ := Nat.exists_eq_add_of_lt hlt
      rw [Nat.add_assoc, List.take_length_add_append, List.take_succ_cons]
      simp
    rw [if_neg fun h => hfeed h.2.1, if_neg fun h => hshort h.1]
    rfl

theorem length_of_field? {width low high n : Nat} {t rest : List Char}
    (h : field? width low high t = some (n, rest)) : t.length = width + rest.length := by
  unfold field? at h
  dsimp only at h
  split at h
  next hall =>
    cases h
    rw [List.length_take] at hall
    rw [List.length_drop]
    omega
  next => cases h

theorem length_of_stripStart? {word t rest : List Char} (h : stripStart? word t = some rest) :
    t.length = word.length + rest.length := by
  rw [stripStart?_eq_some_iff] at h
  rw [h, List.length_append]

/-- A reader that answers the front of its text, which is then long enough. -/
theorem StopsAtLine.take {α : Type} {read : List Char → List Char → Option (α × List Char)}
    {width : Nat} (h : ∀ front, StopsAtLine (read front))
    (hwidth : ∀ {front t found}, read front t = some found → width ≤ t.length) :
    StopsAtLine fun t => read (t.take width) t := by
  intro t u
  dsimp only
  rw [h _ t u]
  by_cases hle : width ≤ t.length
  · rw [List.take_append_of_le_length hle]
  · have hnone (front : List Char) : read front t = none :=
      Option.eq_none_iff_forall_ne_some.mpr fun _ hread => hle (hwidth hread)
    rw [hnone, hnone]

/-- A date whose text is known. -/
def dateWith? (front t : List Char) : Option (List Char × List Char) := do
  let (year, r) ← field? 4 0 9999 t
  let r ← stripStart? ['-'] r
  let (month, r) ← field? 2 1 12 r
  let r ← stripStart? ['-'] r
  let (_, r) ← field? 2 1 (daysIn year month) r
  return (front, r)

theorem stopsAtLine_date? : StopsAtLine date? := by
  have hwidth {front t : List Char} {found : List Char × List Char}
      (h : dateWith? front t = some found) : 10 ≤ t.length := by
    simp only [dateWith?, Option.bind_eq_bind, Option.bind_eq_some_iff, Prod.exists] at h
    obtain ⟨year, r₁, h₁, r₂, h₂, month, r₃, h₃, r₄, h₄, day, r₅, h₅, -⟩ := h
    have := length_of_field? h₁
    have := length_of_stripStart? h₂
    have := length_of_field? h₃
    have := length_of_stripStart? h₄
    have := length_of_field? h₅
    simp only [List.length_singleton] at *
    omega
  change StopsAtLine fun t => dateWith? (t.take 10) t
  refine StopsAtLine.take (fun front => ?_) hwidth
  refine (stopsAtLine_field? 4 0 9999).bind fun year => ?_
  refine StopsAtLine.strip (by decide) ((stopsAtLine_field? 2 1 12).bind fun month => ?_)
  refine StopsAtLine.strip (by decide) ((stopsAtLine_field? 2 1 _).bind fun _ => ?_)
  exact stopsAtLine_pure front

/-- A fraction of a second behind a time whose text is known, or nothing. -/
def fractionWith? (front : List Char) : List Char → Option (List Char × List Char)
  | '.' :: s =>
    if (s.takeWhile Char.isDigit).isEmpty then none
    else some (front ++ secondsFraction (s.takeWhile Char.isDigit), s.dropWhile Char.isDigit)
  | r => some (front, r)

theorem stopsAtLine_fractionWith? (front : List Char) : StopsAtLine (fractionWith? front) := by
  intro r u
  fun_cases fractionWith? front r with
  | case1 s hempty =>
    rw [List.cons_append, fractionWith?, takeWhile_append_cons (by decide), if_pos hempty]
    rfl
  | case2 s hdigits =>
    rw [List.cons_append, fractionWith?, takeWhile_append_cons (by decide),
      dropWhile_append_cons (by decide), if_neg hdigits]
    rfl
  | case3 r hpoint =>
    rw [fractionWith?.eq_2 _ _ (append_ne_cons (by decide) hpoint)]
    rfl

/-- A time of day whose text is known up to the fraction of a second. -/
def timeWith? (front t : List Char) : Option (List Char × List Char) := do
  let (_, r) ← field? 2 0 23 t
  let r ← stripStart? [':'] r
  let (_, r) ← field? 2 0 59 r
  let r ← stripStart? [':'] r
  let (_, r) ← field? 2 0 60 r
  fractionWith? front r

theorem time?_eq (t : List Char) : time? t = timeWith? (t.take 8) t := by
  unfold time? timeWith?
  refine bind_congr fun (_, r) => bind_congr fun r => bind_congr fun (_, r) => bind_congr fun r =>
    bind_congr fun (_, r) => ?_
  dsimp only
  fun_cases fractionWith? (t.take 8) r with
  | case1 s hempty => exact if_pos hempty
  | case2 s hdigits => exact if_neg hdigits
  | case3 r hpoint =>
    split
    next s => exact (hpoint s rfl).elim
    next => rfl

theorem stopsAtLine_time? : StopsAtLine time? := by
  have hwidth {front t : List Char} {found : List Char × List Char}
      (h : timeWith? front t = some found) : 8 ≤ t.length := by
    simp only [timeWith?, Option.bind_eq_bind, Option.bind_eq_some_iff, Prod.exists] at h
    obtain ⟨hour, r₁, h₁, r₂, h₂, minute, r₃, h₃, r₄, h₄, second, r₅, h₅, -⟩ := h
    have := length_of_field? h₁
    have := length_of_stripStart? h₂
    have := length_of_field? h₃
    have := length_of_stripStart? h₄
    have := length_of_field? h₅
    simp only [List.length_singleton] at *
    omega
  rw [funext time?_eq]
  refine StopsAtLine.take (fun front => ?_) hwidth
  refine (stopsAtLine_field? 2 0 23).bind fun _ => ?_
  refine StopsAtLine.strip (by decide) ((stopsAtLine_field? 2 0 59).bind fun _ => ?_)
  refine StopsAtLine.strip (by decide) ((stopsAtLine_field? 2 0 60).bind fun _ => ?_)
  exact stopsAtLine_fractionWith? front

/-- A distance behind its sign, whose text is known. -/
def distanceWith? (c : Char) (front t : List Char) : Option (List Char × List Char) := do
  let (hours, r) ← field? 2 0 23 t
  let r ← stripStart? [':'] r
  let (minutes, r) ← field? 2 0 59 r
  return ((if hours + minutes = 0 then '+' else c) :: front, r)

theorem stopsAtLine_distanceWith? (c : Char) :
    StopsAtLine fun t => distanceWith? c (t.take 5) t := by
  have hwidth {front t : List Char} {found : List Char × List Char}
      (h : distanceWith? c front t = some found) : 5 ≤ t.length := by
    simp only [distanceWith?, Option.bind_eq_bind, Option.bind_eq_some_iff, Prod.exists] at h
    obtain ⟨hours, r₁, h₁, r₂, h₂, minutes, r₃, h₃, -⟩ := h
    have := length_of_field? h₁
    have := length_of_stripStart? h₂
    have := length_of_field? h₃
    simp only [List.length_singleton] at *
    omega
  refine StopsAtLine.take (fun front => ?_) hwidth
  refine (stopsAtLine_field? 2 0 23).bind fun hours => ?_
  refine StopsAtLine.strip (by decide) ((stopsAtLine_field? 2 0 59).bind fun minutes => ?_)
  exact stopsAtLine_pure _

theorem stopsAtLine_offset? : StopsAtLine offset? := by
  intro t u
  fun_cases offset? t with
  | case1 r => rfl
  | case2 r => rfl
  | case3 c r hZ hz hsign =>
    rw [List.cons_append, offset?.eq_3 _ _ hZ hz, if_pos hsign]
    exact stopsAtLine_distanceWith? c r u
  | case4 c r hZ hz hsign =>
    rw [List.cons_append, offset?.eq_3 _ _ hZ hz, if_neg hsign]
    rfl
  | case5 => rfl

/-- What stands behind a date, with what it is followed by. -/
theorem timeBehind_append (t u : List Char) : timeBehind (t ++ '\n' :: u) = andLine u (timeBehind t) := by
  cases t with
  | nil => rfl
  | cons c r =>
    rw [List.cons_append, timeBehind, timeBehind]
    split
    · rw [stopsAtLine_time? r u]
      cases time? r with
      | none => rfl
      | some found =>
        dsimp only [Option.map_some, andLine]
        rw [stopsAtLine_offset? found.2 u]
        cases offset? found.2 <;> rfl
    · rfl

theorem stopsAtLine_datetime? : StopsAtLine datetime? := by
  intro t u
  rw [datetime?, datetime?, stopsAtLine_date? t u]
  cases date? t with
  | none =>
    dsimp only [Option.map_none]
    rw [stopsAtLine_time? t u]
    cases time? t <;> rfl
  | some found =>
    dsimp only [Option.map_some, andLine]
    rw [timeBehind_append]
    rfl

/-! ## Strings of one line -/

theorem number?_take_eq_none {t u : List Char} {width : Nat} (h : t.length < width) :
    Hex.number? ((t ++ '\n' :: u).take width) = none := by
  obtain ⟨n, rfl⟩ := Nat.exists_eq_add_of_lt h
  rw [Nat.add_assoc, List.take_length_add_append, List.take_succ_cons]
  exact Hex.number?_eq_none (List.mem_append_right _ List.mem_cons_self) (by decide)

/-- An escape ends within its line. -/
theorem escape?_append (t u : List Char) : escape? (t ++ '\n' :: u) = escape? t := by
  have htake {r : List Char} {width : Nat} (h : ¬ r.length < width) :
      (r ++ '\n' :: u).take width = r.take width ∧ ¬ (r ++ '\n' :: u).length < width := by
    rw [List.take_append_of_le_length (Nat.not_lt.mp h), List.length_append]
    exact ⟨rfl, by omega⟩
  fun_cases escape? t with
  -- with the line feed among them the characters are no number
  | case1 r hshort | case3 r hshort =>
    rw [List.cons_append, escape?, number?_take_eq_none hshort]
    exact ite_self none
  | case2 r hlong | case4 r hlong =>
    rw [List.cons_append, escape?, if_neg (htake hlong).2, (htake hlong).1]
  | case5 c r hu hU => rw [List.cons_append, escape?.eq_3 _ _ hu hU]
  | case6 => rfl

theorem le_length_of_escape? {t : List Char} {c : Char} {width : Nat}
    (h : escape? t = some (c, width)) : width ≤ t.length := by
  fun_cases escape? t with
  | case1 r hshort | case3 r hshort =>
    rw [escape?, if_pos hshort] at h
    cases h
  | case2 r hlong | case4 r hlong =>
    rw [escape?, if_neg hlong, Option.map_eq_some_iff] at h
    obtain ⟨_, -, heq⟩ := h
    cases heq
    exact Nat.succ_le_succ (Nat.not_lt.mp hlong)
  | case5 d r hu hU =>
    rw [escape?.eq_3 _ _ hu hU, Option.map_eq_some_iff] at h
    obtain ⟨_, -, heq⟩ := h
    cases heq
    exact Nat.succ_le_succ (Nat.zero_le _)
  | case6 => cases h

theorem basic?_append {skip : Nat} {t : List Char} (h : skip ≤ t.length) (u : List Char) :
    basic? skip (t ++ '\n' :: u) = (basic? skip t).map (andLine u) := by
  fun_induction basic? skip t with
  -- nothing is left of an escape where the text ends
  | case1 skip =>
    obtain rfl : skip = 0 := Nat.le_zero.mp h
    rfl
  | case2 skip c r ih => exact ih (Nat.le_of_succ_le_succ h)
  | case3 r => rfl
  | case4 r c width hescape ih =>
    rw [List.cons_append, basic?.eq_4, escape?_append, hescape]
    dsimp only
    rw [ih (le_length_of_escape? hescape)]
    cases basic? width r <;> rfl
  | case5 r hescape =>
    rw [List.cons_append, basic?.eq_4, escape?_append, hescape]
    rfl
  | case6 c r hquote hbackslash hvisible ih =>
    rw [List.cons_append, basic?.eq_5 _ _ hquote hbackslash, if_pos hvisible, ih (Nat.zero_le _)]
    cases basic? 0 r <;> rfl
  | case7 c r hquote hbackslash hvisible =>
    rw [List.cons_append, basic?.eq_5 _ _ hquote hbackslash, if_neg hvisible]
    rfl

theorem stopsAtLine_basic? : StopsAtLine (basic? 0) :=
  fun t u => basic?_append (Nat.zero_le t.length) u

theorem stopsAtLine_literal? : StopsAtLine literal? := by
  intro t u
  fun_induction literal? t with
  | case1 => rfl
  | case2 r => rfl
  | case3 c r hmark hvisible ih =>
    rw [List.cons_append, literal?.eq_3 _ _ hmark, if_pos hvisible, ih]
    cases literal? r <;> rfl
  | case4 c r hmark hvisible =>
    rw [List.cons_append, literal?.eq_3 _ _ hmark, if_neg hvisible]
    rfl

/-! ## Names and keys -/

theorem skipSpaces_append_line (t u : List Char) :
    skipSpaces (t ++ '\n' :: u) = skipSpaces t ++ '\n' :: u :=
  dropWhile_append_cons (by decide)

theorem stopsAtLine_name? : StopsAtLine name? := by
  intro t u
  by_cases hquote : ∃ r, t = '"' :: r
  · obtain ⟨r, rfl⟩ := hquote
    rw [List.cons_append, name?, name?, stopsAtLine_basic? r u]
    cases basic? 0 r <;> rfl
  by_cases hmark : ∃ r, t = '\'' :: r
  · obtain ⟨r, rfl⟩ := hmark
    rw [List.cons_append, name?, name?, stopsAtLine_literal? r u]
    cases literal? r <;> rfl
  rw [not_exists] at hquote hmark
  rw [name?.eq_3 t hquote hmark,
    name?.eq_3 _ (append_ne_cons (by decide) hquote) (append_ne_cons (by decide) hmark),
    takeWhile_append_cons (by decide), dropWhile_append_cons (by decide)]
  cases t.takeWhile isBareChar <;> rfl

theorem stopsAtLine_names? (bound : Nat) : StopsAtLine (names? bound) := by
  intro t u
  induction bound generalizing t with
  | zero => rfl
  | succ bound ih =>
    rw [names?, names?, skipSpaces_append_line, stopsAtLine_name? (skipSpaces t) u]
    cases name? (skipSpaces t) with
    | none => rfl
    | some found =>
      dsimp only [Option.map_some, andLine]
      rw [skipSpaces_append_line]
      by_cases hdot : ∃ r, skipSpaces found.2 = '.' :: r
      · obtain ⟨r, hr⟩ := hdot
        rw [hr]
        change (names? bound (r ++ '\n' :: u)).map _ = ((names? bound r).map _).map (andLine u)
        rw [ih r]
        cases names? bound r <;> rfl
      · rw [not_exists] at hdot
        have hdot' := append_ne_cons (u := u) (by decide) hdot
        split
        next r heq => exact (hdot' r heq).elim
        next => rfl

theorem stopsAtLine_key? : StopsAtLine key? :=
  stopsAtLine_names? _

end JniLink.Toml
