import Slotwise.Plan
import Slotwise.Sink
/-!
# Manifests

The manifest of a crate that holds nothing but generated code. It depends on serialization only
where some declaration of the request serializes, and belongs to no workspace around it.
-/

namespace Slotwise

namespace Manifest

/-- The name of a manifest's file. -/
def fileName : String := "Cargo.toml"

/-- The lines of a manifest up to the dependencies. -/
def head (package : String) : List String :=
  ["[package]", "name = \"" ++ package ++ "\"", "version = \"0.1.0\"", "edition = \"2024\"",
    "publish = false", "", "[lib]", "path = \"src/lib.rs\"", "", "[dependencies]"]

/-- The line of the dependency that serialization needs. -/
def serialization : String :=
  "serde = \x7b version = \"1.0\", features = [\"derive\"] \x7d"

/-- The lines of a manifest behind the dependencies. -/
def tail : List String :=
  ["", "[dev-dependencies]", "futures = \"0.3\"", "serde_json = \"1.0\"", "", "[workspace]"]

/-- The text of the manifest of a crate. -/
def text (package : String) (serializes : Bool) : String :=
  let lines := head package ++ (if serializes then [serialization] else []) ++ tail
  String.join (lines.map (· ++ "\n"))

/-- The path of the manifest in a directory. -/
def path (directory : FilePath) : FilePath :=
  directory.push fileName

/-- The step that writes the manifest of a crate into a directory. -/
def writing (directory : FilePath) (package : String) (serializes : Bool) : DiskStep :=
  .write (path directory) (text package serializes)

end Manifest

end Slotwise
