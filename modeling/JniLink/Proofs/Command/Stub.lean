import JniLink.Command.Sources
import JniLink.Proofs.File.Tree
import JniLink.Proofs.Library.Resolution
import JniLink.Proofs.Stub
import JniLink.Proofs.Stub.Imports

/-!
# Stubs close the gap

Stubs are generated for the methods that a library leaves open, and for no others: the text that a
command prints or writes is read as one function for each of them, in the order of the source
(`Finish.Puts`). A library that exports their functions besides binds every method: the open ones to
their stubs, and all others as before. What could go wrong with the latter is a method that is bound
to its long symbol, which a stub under its short symbol would take over. But then another method would
have that short symbol, and the methods of one class have it in common only with their name.

So no method may be overloaded here. Whether a function under the symbol of a stub does what the
method is declared to do is not said.
-/

namespace JniLink

namespace Library

variable {l l' : Library} {d : Declaration} {symbol : String}

/-- A declaration is bound to the first of its symbols that is exported, if the manifest agrees. -/
theorem resolve_eq_ok_iff_check : l.resolve d = .ok symbol ↔
    l.IsFirstExport d symbol ∧ ∀ m, l.manifest = some m → m.check d symbol = .ok () := by
  rw [← find?_has_eq_some_iff, resolve]
  cases d.symbols.find? l.has with
  | none => simp
  | some first =>
    cases l.manifest with
    | none => simp
    | some m =>
      simp only [Option.some.injEq, forall_eq']
      cases hcheck : m.check d first with
      | error e =>
        refine ⟨fun h => (by cases h), ?_⟩
        rintro ⟨rfl, hok⟩
        cases hcheck.symm.trans hok
      | ok =>
        refine ⟨fun h => ?_, fun h => by rw [h.1]⟩
        cases h
        exact ⟨rfl, hcheck⟩

/-- Whether a library exports none of the symbols of a declaration. -/
def leavesOpen (l : Library) (d : Declaration) : Bool :=
  match l.resolve d with
  | .error (.unsatisfied ..) => true
  | _ => false

/-- A library has the manifest of another one, and exports what that one does and some symbols
besides. -/
structure Adds (l' l : Library) (added : List String) : Prop where
  manifest : l'.manifest = l.manifest
  mem_exports_iff (symbol : String) : symbol ∈ l'.image.exports.map (·.1) ↔
    symbol ∈ l.image.exports.map (·.1) ∨ symbol ∈ added

namespace Adds

variable {added : List String} (h : l'.Adds l added)
include h

theorem exports_of_mem (husable : Symbol.isUsable symbol = true) (hmem : symbol ∈ added) :
    l'.Exports symbol := by
  simp only [Symbol.isUsable, Bool.and_eq_true, bne_iff_ne, Bool.not_eq_true', List.contains_eq_mem,
    decide_eq_false_iff_not] at husable
  exact ⟨husable.1, husable.2, (h.mem_exports_iff symbol).mpr (.inr hmem)⟩

theorem exports_iff (hnot : symbol ∉ added) : l'.Exports symbol ↔ l.Exports symbol := by
  rw [Exports, Exports, h.mem_exports_iff, or_iff_left hnot]

theorem exports_of_exports (hexports : l.Exports symbol) : l'.Exports symbol :=
  ⟨hexports.1, hexports.2.1, (h.mem_exports_iff symbol).mpr (.inl hexports.2.2)⟩

variable {owner : String} (hd : d.IsScanned owner)
include hd

/-- A method whose short symbol is added and not listed is bound to it. -/
theorem resolve_of_mem (hmem : d.mainSymbol ∈ added)
    (hlisted : ∀ m, l.manifest = some m → m.find? d.mainSymbol = none) :
    l'.resolve d = .ok d.mainSymbol := by
  have husable : Symbol.isUsable d.mainSymbol = true := by
    rw [hd.mainSymbol_eq]
    exact Symbol.isUsable_short owner d.name
  refine resolve_eq_ok_iff_check.mpr
    ⟨⟨[], _, hd.symbols_eq, h.exports_of_mem husable hmem, nofun⟩, fun m hm => ?_⟩
  exact Manifest.check_of_find?_eq_none (hlisted m (h.manifest ▸ hm))

/-- A method that was bound stays bound to the same symbol unless its short one is added. -/
theorem resolve_of_notMem (hnot : d.mainSymbol ∉ added) (hresolve : l.resolve d = .ok symbol) :
    l'.resolve d = .ok symbol := by
  obtain ⟨⟨before, after, heq, hsymbol, hbefore⟩, hcheck⟩ := resolve_eq_ok_iff_check.mp hresolve
  have hmain : ∀ other ∈ before, other = d.mainSymbol := by
    intro other hother
    rw [hd.symbols_eq] at heq
    match before, heq with
    | [_], heq =>
      rw [List.mem_singleton.mp hother]
      exact (List.cons.inj heq).1.symm
    | _ :: _ :: _, heq => simp at heq
  refine resolve_eq_ok_iff_check.mpr
    ⟨⟨before, after, heq, h.exports_of_exports hsymbol, fun other hother hexports => ?_⟩,
      h.manifest ▸ hcheck⟩
  rw [h.exports_iff (hmain other hother ▸ hnot)] at hexports
  exact hbefore other hother hexports

end Adds

end Library

/-- What a command leaves when it has put the stubs of some declarations: they are what it has printed,
or what the file reads as that it was told to write. Without declarations it leaves everything as it
was. -/
def Finish.Puts (f : Finish) (decls : List Declaration) (output : Option Path) (before : System) :
    Prop :=
  if decls = [] then f.output = "" ∧ f.system = before
  else
    match output with
    | none => Stub.IsFileOf decls f.output ∧ f.system = before
    | some path => ∃ text, before.files.writeText before.workingPlace path text = .ok f.system.files ∧
      f.system.readText path = .ok text ∧ Stub.IsFileOf decls text

namespace Project

open Library

/-- The declarations that are left open, in their order; all others are bound. -/
theorem of_openIn {l : Library} {decls missing : List Declaration}
    (h : openIn l decls = .ok missing) :
    missing = decls.filter l.leavesOpen ∧
      ∀ d ∈ decls, l.leavesOpen d = false → ∃ symbol, l.resolve d = .ok symbol := by
  induction decls generalizing missing with
  | nil =>
    cases h
    exact ⟨rfl, nofun⟩
  | cons d decls ih =>
    rw [openIn] at h
    rw [List.forall_mem_cons, List.filter_cons, leavesOpen]
    split at h
    next symbol hresolve =>
      obtain ⟨hmissing, hbound⟩ := ih h
      rw [hresolve]
      exact ⟨hmissing, fun _ => ⟨symbol, rfl⟩, hbound⟩
    -- the declaration is open, and it is listed if no later one makes the search fail
    next hresolve =>
      cases hrest : openIn l decls with
      | error e =>
        rw [hrest] at h
        cases h
      | ok rest =>
        rw [hrest] at h
        cases h
        obtain ⟨hmissing, hbound⟩ := ih hrest
        rw [hresolve]
        exact ⟨congrArg (d :: ·) hmissing, nofun, hbound⟩
    next => cases h

variable {p : Project} {source : Path} {name : String} {output : Option Path}

/-- Stubs that are printed or written are a file of stubs. -/
theorem puts_writeStubs {owner : String} {decls : List Declaration}
    (h : (p.writeStubs owner decls output).failure = none) :
    (p.writeStubs owner decls output).Puts decls output p.system := by
  unfold writeStubs at h ⊢
  unfold Finish.Puts
  by_cases hnil : decls = []
  · rw [if_pos hnil, if_pos hnil]
    exact ⟨rfl, rfl⟩
  rw [if_neg hnil] at h ⊢
  rw [if_neg hnil]
  cases output with
  | none => exact ⟨Stub.isFileOf_file decls, rfl⟩
  | some path =>
    dsimp only at h ⊢
    rw [writeText] at h ⊢
    cases hwrite : p.system.files.writeText p.system.workingPlace path (Stub.file decls) with
    | error fault =>
      rw [hwrite] at h
      cases h
    | ok files =>
      exact ⟨Stub.file decls, hwrite, FileTree.readText_writeText hwrite, Stub.isFileOf_file decls⟩

/-- What a command that generates stubs beside a library has gone through if it does not fail. -/
theorem of_stub (h : (p.stub source (some name) output).failure = none) :
    ∃ language content host library p' missing,
      Language.ofPath? source = some language ∧ p.system.readText source = .ok content ∧
      HostSource.ofText language content = .ok host ∧
      p.openLibrary name = .ok (library, p') ∧ openIn library host.methods = .ok missing ∧
      p.stub source (some name) output = p'.writeStubs host.owner missing output := by
  unfold stub at h ⊢
  split at h
  · cases h
  next language hlanguage =>
    split at h
    · cases h
    next content hcontent =>
      split at h
      · cases h
      next host hhost =>
        simp only at h
        split at h
        · cases h
        next library p' hopen =>
          split at h
          · cases h
          next missing hmissing =>
            refine ⟨language, content, host, library, p', missing, hlanguage, hcontent, hhost,
              hopen, hmissing, ?_⟩
            simp only [hopen, hmissing]

/-- A command that generates stubs beside a library writes them for exactly the methods that the
library leaves open: what it prints, or the file that it writes, is read as one function for each of
them, in their order. If no method of the source is overloaded, every library that has the same
manifest, in which no stub is listed, and exports the functions of the stubs besides binds the open
methods to their stubs and every other one to the symbol that it was bound to. -/
theorem stub_closes_gap (h : (p.stub source (some name) output).failure = none) :
    ∃ language content host library p',
      Language.ofPath? source = some language ∧ p.system.readText source = .ok content ∧
      HostSource.ofText language content = .ok host ∧ p.openLibrary name = .ok (library, p') ∧
      let missing := host.methods.filter library.leavesOpen
      p.stub source (some name) output = p'.writeStubs host.owner missing output ∧
      (p.stub source (some name) output).Puts missing output p'.system ∧
      ((host.methods.map (·.name)).Nodup →
        ∀ library' : Library, library'.Adds library (missing.map Stub.functionName) →
          (∀ m, library.manifest = some m →
            ∀ d ∈ missing, m.find? (Stub.functionName d) = none) →
          ∀ d ∈ host.methods,
            (d ∈ missing → library'.resolve d = .ok (Stub.functionName d)) ∧
            (d ∉ missing → ∃ symbol,
              library.resolve d = .ok symbol ∧ library'.resolve d = .ok symbol)) := by
  obtain ⟨language, content, host, library, p', missing, hlanguage, hcontent, hhost, hopen, hmissing,
    hstub⟩ := of_stub h
  obtain ⟨rfl, hbound⟩ := of_openIn hmissing
  have hputs : (p.stub source (some name) output).Puts _ output p'.system :=
    hstub ▸ puts_writeStubs (hstub ▸ h)
  refine ⟨language, content, host, library, p', hlanguage, hcontent, hhost, hopen, hstub, hputs,
    fun hnodup library' hadds hlisted d hd => ?_⟩
  have hscanned := HostSource.isScanned_of_mem hhost hd
  refine ⟨fun hmem => ?_, fun hnot => ?_⟩
  · exact hadds.resolve_of_mem hscanned (List.mem_map_of_mem hmem)
      fun m hm => hlisted m hm d hmem
  · have hclosed : library.leavesOpen d = false := by
      rw [List.mem_filter, not_and, Bool.not_eq_true] at hnot
      exact hnot hd
    obtain ⟨symbol, hresolve⟩ := hbound d hd hclosed
    have hfree : d.mainSymbol ∉ (host.methods.filter library.leavesOpen).map Stub.functionName := by
      intro hmem
      obtain ⟨d', hd', hsymbol⟩ := List.mem_map.mp hmem
      have hd'' := List.mem_of_mem_filter hd'
      have hname := ((HostSource.isScanned_of_mem hhost hd'').mainSymbol_eq_iff hscanned).mp hsymbol
      exact hnot (List.inj_on_of_nodup_map hnodup hd'' hd hname ▸ hd')
    exact ⟨symbol, hresolve, hadds.resolve_of_notMem hscanned hfree hresolve⟩

/-- A library exports the long symbol of one method and the short one of another, and lists the
latter; the third one is left open. -/
theorem stub_closes_gap_between :
    let document := "\x7b\"library\": \"x\", \"exports\": [" ++
      "\x7b\"symbol\": \"Java_C_h\", \"descriptor\": \"(Ljava/lang/String;)V\"\x7d]\x7d"
    let exports : List (String × Answer) :=
      [("rustjni_abi_manifest", some document.toUTF8.data.toList), ("Java_C_f__I", none),
        ("Java_C_h", none)]
    let content := "class C \x7b\n  external fun f(a: Int): Int\n  external fun g()\n" ++
      "  external fun h(s: String)\n\x7d\n"
    let s : System := { (default : System) with
      files := ⟨[(["libs"], .directory), (["libs", "libx.so"], .file (.image ⟨exports⟩)),
        (["C.kt"], .file (.bytes content.toUTF8.data.toList))]⟩ }
    let p : Project := ⟨{}, .ofLoader .empty, s⟩
    let path : Path := ⟨"libs/libx.so"⟩
    let l : Library := ⟨0, path.text, path, ⟨["libs", "libx.so"], path⟩, ⟨exports⟩,
      some ⟨"x", "", [⟨"Java_C_h", "(Ljava/lang/String;)V", none, none⟩]⟩⟩
    let l' : Library := { l with image := ⟨exports ++ [("Java_C_g", none)]⟩ }
    let f := Declaration.ofMethod "C" "f" ⟨[.primitive .int], .primitive .int⟩
    let g := Declaration.ofMethod "C" "g" ⟨[], .void⟩
    let h := Declaration.ofMethod "C" "h" ⟨[.string], .void⟩
    (p.openLibrary path.text).map (·.1) = .ok l ∧
      (p.stub ⟨"C.kt"⟩ (some path.text) none).failure = none ∧
      (p.stub ⟨"C.kt"⟩ (some path.text) none).output = Stub.file [g] ∧
      Stub.IsFileOf [g] (p.stub ⟨"C.kt"⟩ (some path.text) none).output ∧
      l'.resolve f = .ok "Java_C_f__I" ∧ l'.resolve g = .ok "Java_C_g" ∧
      l'.resolve h = .ok "Java_C_h" := by
  intro document exports content s p path l l' f g h
  have hlibrary : (p.openLibrary path.text).map (·.1) = .ok l := by decide +kernel
  have hok : (p.stub ⟨"C.kt"⟩ (some path.text) none).failure = none := by decide +kernel
  have hlanguage : Language.ofPath? ⟨"C.kt"⟩ = some .kotlin := by decide +kernel
  have hcontent : p.system.readText ⟨"C.kt"⟩ = .ok content := by decide +kernel
  have hhost : HostSource.ofText .kotlin content = .ok ⟨.kotlin, "C", [], [f, g, h]⟩ := by
    decide +kernel
  have hmissing : [f, g, h].filter l.leavesOpen = [g] := by decide +kernel
  have hf : l.resolve f = .ok "Java_C_f__I" := by decide +kernel
  have hh : l.resolve h = .ok "Java_C_h" := by decide +kernel
  have hg : Stub.functionName g = "Java_C_g" := by decide +kernel
  obtain ⟨language, content', host, library, p', hlanguage', hcontent', hhost', hopen, hstub,
    hputs, hgap⟩ := stub_closes_gap hok
  cases hlanguage.symm.trans hlanguage'
  cases hcontent.symm.trans hcontent'
  cases hhost.symm.trans hhost'
  have hopened : library = l := by
    rw [hopen] at hlibrary
    exact Except.ok.inj hlibrary
  subst library
  simp only [hmissing] at hstub hputs hgap
  have hadds : l'.Adds l ([g].map Stub.functionName) := by
    refine ⟨rfl, fun symbol => ?_⟩
    rw [List.map_singleton, hg, ← List.mem_append]
    exact Iff.rfl
  have hlisted : ∀ m, l.manifest = some m → ∀ d ∈ [g], m.find? (Stub.functionName d) = none := by
    rintro m hm d hd
    cases hm
    rw [List.mem_singleton.mp hd, hg]
    decide +kernel
  have hbound := hgap (by decide +kernel) l' hadds hlisted
  have hgap_g := (hbound g (by simp)).1 (by simp)
  obtain ⟨symbol, hbefore, hafter⟩ := (hbound f (by simp)).2 (by decide +kernel)
  cases hf.symm.trans hbefore
  obtain ⟨symbol, hbefore, hafter'⟩ := (hbound h (by simp)).2 (by decide +kernel)
  cases hh.symm.trans hbefore
  rw [hg] at hgap_g
  exact ⟨hlibrary, hok, by rw [hstub]; rfl, hputs.1, hafter, hgap_g, hafter'⟩

end Project

end JniLink
