import Mathlib.Control.Monad.Basic
import Mathlib.Data.List.Forall2

/-!
# Steps that may fail

What was answered by steps one behind the other, or by one step for each element of a list, was
answered by each of them.
-/

namespace JniLink

variable {ε α β : Type}

theorem bind_eq_ok {read : Except ε α} {f : α → Except ε β} {b : β} :
    read >>= f = .ok b ↔ ∃ a, read = .ok a ∧ f a = .ok b := by
  cases read with
  | error e =>
    constructor
    · intro h
      cases h
    · rintro ⟨a, ha, -⟩
      cases ha
  | ok a =>
    constructor
    · exact fun h => ⟨a, rfl, h⟩
    · rintro ⟨_, ha, h⟩
      cases ha
      exact h

theorem mapError_eq_ok {ε' : Type} {f : ε → ε'} {read : Except ε α} {a : α} :
    read.mapError f = .ok a ↔ read = .ok a := by
  cases read with
  | error e => exact iff_of_false nofun nofun
  | ok a' => rw [Except.mapError, Except.ok.injEq, Except.ok.injEq]

section List

variable {f : α → Except ε β} {l : List α} {found : List β}

theorem forall₂_of_mapM_eq_ok (h : l.mapM f = .ok found) :
    List.Forall₂ (fun a b => f a = .ok b) l found := by
  induction l generalizing found with
  | nil =>
    cases h
    exact .nil
  | cons a l ih =>
    rw [List.mapM_cons] at h
    obtain ⟨b, hb, h⟩ := bind_eq_ok.mp h
    obtain ⟨rest, hrest, h⟩ := bind_eq_ok.mp h
    cases h
    exact .cons hb (ih hrest)

theorem length_of_mapM_eq_ok (h : l.mapM f = .ok found) : found.length = l.length :=
  (forall₂_of_mapM_eq_ok h).length_eq.symm

theorem exists_of_mem_mapM_eq_ok (h : l.mapM f = .ok found) {b : β} (hb : b ∈ found) :
    ∃ a ∈ l, f a = .ok b := by
  have hlist := forall₂_of_mapM_eq_ok h
  clear h
  induction hlist with
  | nil => cases hb
  | cons hread _ ih =>
    rcases List.mem_cons.mp hb with rfl | hb
    · exact ⟨_, List.mem_cons_self, hread⟩
    · obtain ⟨a, ha, hread⟩ := ih hb
      exact ⟨a, List.mem_cons_of_mem _ ha, hread⟩

theorem forall_mem_iff_of_forall₂ {p : α → Prop} {q : β → Prop} {l : List α} {m : List β}
    (h : List.Forall₂ (fun a b => p a ↔ q b) l m) : (∀ a ∈ l, p a) ↔ ∀ b ∈ m, q b := by
  induction h with
  | nil => exact iff_of_true nofun nofun
  | cons hab _ ih => rw [List.forall_mem_cons, List.forall_mem_cons, hab, ih]

end List

end JniLink
