import Mathlib.Data.List.Nodup
import JniLink.Proofs.Host.Scan
import JniLink.Stub

/-!
# The functions that stubs define

The stub of a method defines a function under the symbol that is looked up first, which is the short
one. Overloaded methods have that symbol in common, so the stubs of a source define each function
once if and only if no method of it is overloaded. The long symbols, which would tell overloads
apart, are not used.
-/

namespace JniLink

namespace Stub

theorem functionName_mem_symbols (d : Declaration) : functionName d ∈ d.symbols :=
  List.mem_of_mem_head? (by rw [d.symbols_head?, functionName]; rfl)

/-- The head of the function that the stub of a method defines. -/
theorem exists_text_eq {d : Declaration} (h : d.linkage = .jni) :
    ∃ rest, text d = "/// " ++ d.text ++ "\n#[no_mangle]\npub extern \"system\" fn " ++
      functionName d ++ "<'local>(\n" ++ rest := by
  have hlead : "\n#[no_mangle]\npub extern \"system\" fn " =
      "\n" ++ ("#[no_mangle]\n" ++ ("pub extern \"" ++ ("system" ++ "\" fn "))) := by decide
  have hopen : "<'local>(\n" = "<'local>" ++ "(\n" := by decide
  delta text
  rw [h, hlead, hopen]
  simp only [String.append_assoc, -String.reduceAppend]
  exact ⟨_, rfl⟩

end Stub

/-- The functions that the stubs of a source define have different names exactly if the methods
have, whatever their parameters are. Each is one of the symbols under which its method is looked
up. -/
theorem HostSource.nodup_functionName_iff {language : Language} {text : String} {src : HostSource}
    (h : ofText language text = .ok src) :
    ((src.methods.map Stub.functionName).Nodup ↔ (src.methods.map (·.name)).Nodup) ∧
      ∀ d ∈ src.methods, Stub.functionName d ∈ d.symbols ∧
        ∃ rest, Stub.text d = "/// " ++ d.text ++ "\n#[no_mangle]\npub extern \"system\" fn " ++
          Stub.functionName d ++ "<'local>(\n" ++ rest := by
  refine ⟨?_, fun d hd => ⟨Stub.functionName_mem_symbols d,
    Stub.exists_text_eq (isScanned_of_mem h hd).linkage⟩⟩
  simp only [List.Nodup, List.pairwise_map]
  refine List.Pairwise.iff_of_mem fun {d d'} hd hd' => not_congr ?_
  exact (isScanned_of_mem h hd).mainSymbol_eq_iff (isScanned_of_mem h hd')

/-- Names that only their underscores keep apart make different functions. -/
theorem HostSource.nodup_functionName_iff_underscores :
    let method (name : String) := Declaration.ofMethod "a.B" name ⟨[], .void⟩
    let src : HostSource := ⟨.java, "a.B", [], [method "f", method "f_", method "_f1"]⟩
    ofText .java "package a; class B \x7b native void f(); native void f_(); native void _f1(); \x7d" =
        .ok src ∧
      src.methods.map Stub.functionName = ["Java_a_B_f", "Java_a_B_f_1", "Java_a_B__1f1"] ∧
      (src.methods.map Stub.functionName).Nodup := by
  intro method src
  have hread : ofText .java
      "package a; class B \x7b native void f(); native void f_(); native void _f1(); \x7d" =
        .ok src := by
    rw [ofText, String.toList_ofList]
    decide +kernel
  exact ⟨hread, by decide +kernel, (nodup_functionName_iff hread).1.mpr (by decide)⟩

/-- Two methods that differ in their parameters are given one function name. -/
theorem HostSource.functionName_eq_of_overloads :
    ∃ d d', ofText .kotlin "class C \x7b\n  external fun f(a: Int)\n  external fun f(a: String)\n\x7d\n" =
        .ok ⟨.kotlin, "C", [], [d, d']⟩ ∧
      (d.name, d.signature.params) ≠ (d'.name, d'.signature.params) ∧
      Stub.functionName d = Stub.functionName d' := by
  refine ⟨.ofMethod "C" "f" ⟨[.primitive .int], .void⟩, .ofMethod "C" "f" ⟨[.string], .void⟩, ?_,
    by decide, rfl⟩
  rw [ofText, String.toList_ofList]
  decide +kernel

end JniLink
