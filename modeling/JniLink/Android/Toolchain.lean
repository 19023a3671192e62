import JniLink.Android.Target
import JniLink.Text.Block
import JniLink.Text.NameMap
import JniLink.Toml.Writer

/-!
# Toolchains

The archiver and the linker that the build uses for a target, and the marked block of the build's
configuration file that says so: a TOML table for each target. The block replaces an earlier one, or
is appended behind an empty line.
-/

namespace JniLink.Android

open JniLink.Text

/-- The tools for one target. -/
structure Toolchain where
  target : Target
  ar : String
  linker : String
  deriving DecidableEq, Repr

/-- The oldest platform level with 64-bit targets. -/
def defaultApiLevel : UInt32 := 21

/-- The archiver that is used unless it is configured. -/
def defaultAr : String := "llvm-ar"

/-- The linker that is used for a target unless it is configured. -/
def defaultLinker (target : Target) (apiLevel : UInt32) : String :=
  let family := match target with
    | .armv7 => "armv7a-linux-androideabi"
    | target => target.triple
  s!"{family}{apiLevel}-clang"

/-- The name of the development kit's tools for the machine that builds. -/
def buildMachine : String := "linux-x86_64"

/-- The directory of the development kit's tools for a build machine. -/
def toolDirectory (kit : Path) (machine : String) : Path :=
  kit / "toolchains" / "llvm" / "prebuilt" / machine / "bin"

namespace Toolchain

/-- The tools of each target, by its triple, with their paths from a directory on; of two entries for
one target the later one counts. -/
def tools (bin : Path) (toolchains : List Toolchain) : NameMap (String × String) :=
  .ofList (toolchains.map fun t => (t.target.triple, ((bin / t.ar).text, (bin / t.linker).text)))

/-- The configuration of the tools as a TOML table. -/
def table (bin : Path) (toolchains : List Toolchain) : Toml.Table :=
  [("target", .table ((tools bin toolchains).entries.map fun (triple, ar, linker) =>
    (triple, .table [("ar", .string ar), ("linker", .string linker)])))]

/-- The marker in front of a generated block. -/
def blockOpening : String := "#<RustJNI>"

/-- The marker behind a generated block. -/
def blockClosing : String := "#</RustJNI>"

/-- The marked block of the configuration file. -/
def block (bin : Path) (toolchains : List Toolchain) : String :=
  blockOpening ++ "\n#auto-generated code\n" ++ Toml.Table.write (table bin toolchains) ++
    blockClosing ++ "\n"

/-- Puts a block over the earlier one of a configuration file, or behind everything else. -/
def merge (existing block : String) : String :=
  match replaceBlock? blockOpening.toList blockClosing.toList block.toList existing.toList with
  | some merged => String.ofList merged
  | none =>
    if existing = "" then block
    else if existing.toList.getLast? = some '\n' then existing ++ "\n" ++ block
    else existing ++ "\n\n" ++ block

end Toolchain

end JniLink.Android
