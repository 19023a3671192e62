import JniLink.Command.Sources
import JniLink.Text.Column

/-!
# Commands for the build

`cargoConfig` writes the tools of the targets into the build's configuration, `package` copies the
release builds to where an application bundles them, and `targets` lists where the library goes.
-/

namespace JniLink.Project

open JniLink.Android JniLink.Text

/-- The text of the build's configuration file; empty if there is none. -/
def existingText (p : Project) (output : Path) : Except FileFault String :=
  if p.system.contains output then p.system.readText output else .ok ""

/-- Merges the block of the tools in a directory into the build's configuration. -/
def writeTools (p : Project) (bin output : Path) : Finish :=
  let toolchains := p.config.android.toolchains
  match p.existingText output with
  | .error fault => .failedIn p.system (.read output) (.files fault)
  | .ok existing =>
    match p.system.makeAbove output with
    | (.error (dir, fault), s) => .failedIn s (.create dir) (.files fault)
    | (.ok (), s) =>
      let p := { p with system := s }
      match p.writeText output (Toolchain.merge existing (Toolchain.block bin toolchains)) with
      | .error fault => .failedIn s (.write output) (.files fault)
      | .ok s =>
        .done s
          s!"Wrote {toolchains.length} targets to {output.text} (toolchain {bin.text})\n"

/-- Writes the tools of every configured target into the build's configuration. -/
def cargoConfig (p : Project) (output : Path) : Finish :=
  match p.config.android.kit? p.system with
  | none => .failed p.system .noKit
  | some kit =>
    let bin := toolDirectory kit (p.config.android.prebuilt.getD buildMachine)
    if p.system.isDirectory bin then p.writeTools bin output
    else .failed p.system (.noTools bin)

/-- Copies the release builds of all configured targets. -/
def package (p : Project) (targetDir : Path) : Finish :=
  match Android.package p.system p.config.android.targets targetDir p.config.android.jniLibs
      p.config.library.name with
  | (.error e, s) => .failed s (.packaging e)
  | (.ok paths, s) => .done s (String.join (paths.map fun path => path.text ++ "\n"))

/-- A row of the list of targets. -/
def targetRow (target abi build package : String) : String :=
  column 26 target ++ " " ++ column 12 abi ++ " " ++ column 52 build ++ " " ++ package ++ "\n"

/-- Lists the configured targets and where the library goes for each. -/
def targets (p : Project) : Finish :=
  let name := p.config.library.name
  let rows := p.config.android.targets.map fun t =>
    targetRow t.triple t.abi (t.buildPath ⟨"target"⟩ name).text
      (t.libraryPath p.config.android.jniLibs name).text
  .done p.system (targetRow "TARGET" "ABI" "BUILD" "PACKAGE" ++ String.join rows ++
    s!"host file name: {Library.fileName name}\n")

end JniLink.Project
