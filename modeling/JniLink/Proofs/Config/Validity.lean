import JniLink.Config.File
import JniLink.Proofs.Except

/-!
# Configurations in force are valid

A configuration that was read from a file, and the one that is in force without a file, name a
library by a bare name and have methods with descriptors that can be read. A command that starts
from one of them need not look again.
-/

namespace JniLink

open JniLink.Text

/-! ## Bare names -/

/-- A name that is not empty and holds neither a slash of either kind nor a NUL. -/
structure Library.IsBare (name : String) : Prop where
  ne_empty : name ≠ ""
  slash : '/' ∉ name.toList
  backslash : '\\' ∉ name.toList
  nul : '\x00' ∉ name.toList

theorem Library.isBare_of_validateName {name : String} (h : validateName name = .ok ()) :
    IsBare name := by
  rw [validateName, nameFault?] at h
  split at h
  · cases h
  next hfault =>
    split at hfault
    · cases hfault
    next hblank =>
      split at hfault
      · cases hfault
      next hpath =>
        rw [not_or, not_or] at hpath
        refine ⟨?_, hpath.1, hpath.2.1, hpath.2.2⟩
        rintro rfl
        exact hblank rfl

namespace Config

/-! ## Valid configurations -/

theorem of_validate {c : Config} (h : c.validate = .ok ()) :
    Library.validateName c.library.name = .ok () ∧ ∃ decls, c.declarations = .ok decls := by
  unfold validate at h
  obtain ⟨_, hname, h⟩ := bind_eq_ok.mp h
  constructor
  · cases hvalid : Library.validateName c.library.name with
    | error e =>
      rw [hvalid] at hname
      cases hname
    | ok => rfl
  · dsimp only at h
    split at h
    · cases h
    split at h
    · cases h
    obtain ⟨decls, hdecls, -⟩ := bind_eq_ok.mp h
    exact ⟨decls, hdecls⟩

theorem validate_default : ({} : Config).validate = .ok () := by
  decide +kernel

theorem validate_of_load {s : System} {path : Path} {c : Config} (h : load s path = .ok c) :
    c.validate = .ok () := by
  unfold load at h
  split at h
  · cases h
  split at h
  · cases h
  split at h
  · cases h
  split at h
  · cases h
  next hvalid =>
    cases h
    exact hvalid

theorem validate_of_find {s : System} {dir : Path} {c : Config} (h : find s dir = .ok c) :
    c.validate = .ok () := by
  unfold find at h
  split at h
  · exact validate_of_load h
  · cases h
    exact validate_default

end Config

end JniLink
