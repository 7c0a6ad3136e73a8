import Mathlib.Data.List.Lex
import Mathlib.Data.Char
import Mathlib.Data.List.Sort
import FixLoop.EditLock.Paths
import FixLoop.Library.Fallible
import FixLoop.Library.Keyed

namespace FixLoop
namespace LinuxSandbox

open Library
open EditLock (Text Lettering relativePath oneOf)

/-!
# Inventories and snapshot pages

The worker lists the versions of all files of a workspace and hands out the
texts page by page; the host collects the pages and checks each of them.
-/

/-- The digest of bytes, and the digest of the versions of all files. -/
class Digests (Digest : Type) where
  sha256 : ByteArray -> Digest
  contentVersion : List (Text × Digest) -> Digest

/-- A file below the root: whether it is a regular file with a single link,
and what it holds. -/
structure File where
  path : Text
  regular : Bool
  content : ByteArray

/-- What `os.walk` yields for a directory; of its directories the names, and
whether they are symbolic links. -/
structure Listing where
  directories : List (Text × Bool)
  files : List File

/-- A workspace as it is walked, where no two files have one path. -/
structure Workspace where
  walk : List Listing
  distinct : ((walk.flatMap Listing.files).map File.path).Nodup

abbrev Workspace.files (workspace : Workspace) : List File := workspace.walk.flatMap Listing.files

/-- A `ValueError` of its own, one of `relative_path`, or a file that is not there. -/
inductive Fault where
  | value (text : String)
  | path (path : Text)
  | missing (path : Text)
  | diverges

def SKIP_DIRS : List String :=
  [".git", ".agent", ".pytest_cache", "__pycache__", ".ruff_cache", ".venv", "venv", "node_modules", ".pytest-tmp"]

def MAX_FILES : Nat := 4096

def MAX_TOTAL_BYTES : Nat := 256 * 1024 * 1024

def MAX_SOURCE_BYTES : Nat := 2 * 1024 * 1024

section Worker

variable {Digest : Type} [DecidableEq Digest] [Digests Digest] [Lettering]

abbrev Versions (Digest : Type) := List (Text × Digest)

/-- The versions and the size of what was listed so far. -/
def inventoryFile (listed : Versions Digest × Nat) (file : File) : Except Fault (Versions Digest × Nat) :=
  if relativePath file.path = none then .error (.path file.path)
  else if file.regular = false then
    .error (.value "policy_denied: inventory requires regular single-link files")
  else if MAX_FILES ≤ listed.1.length ∨ MAX_TOTAL_BYTES < listed.2 + file.content.size then
    .error (.value "snapshot_limit_exceeded: inventory budget")
  else .ok (Keyed.store Prod.fst (file.path, Digests.sha256 file.content) listed.1, listed.2 + file.content.size)

def inventoryListing (listed : Versions Digest × Nat) (listing : Listing) : Except Fault (Versions Digest × Nat) :=
  if (listing.directories.filter fun directory => !oneOf SKIP_DIRS directory.1).any Prod.snd then
    .error (.value "policy_denied: inventory directory alias")
  else listing.files.foldlM inventoryFile listed

def inventory (workspace : Workspace) : Except Fault (Versions Digest) :=
  (workspace.walk.foldlM inventoryListing ([], 0)).map Prod.fst

/-! ## JSON texts

Only the lengths of the texts that `json.dumps` writes matter, in ASCII. -/

def escapedWidth (char : Char) : Nat :=
  if char = '"' ∨ char = '\\' ∨ char = '\n' ∨ char = '\r' ∨ char = '\t' ∨ char.toNat = 8 ∨ char.toNat = 12 then 2
  else if 32 ≤ char.toNat ∧ char.toNat ≤ 126 then 1
  else if char.toNat < 65536 then 6
  else 12

def stringWidth (text : Text) : Nat := 2 + (text.map escapedWidth).sum

/-- `len(json.dumps({path: text}))`. -/
def entryWidth (entry : Text × String) : Nat := 2 + stringWidth entry.1 + 2 + stringWidth entry.2.toList

/-- The width of an object of these entries, where each but the first follows a comma and a blank. -/
def filesWidth (files : List (Text × String)) : Nat :=
  if files = [] then 2 else (files.map entryWidth).sum

structure Page (Digest : Type) where
  files : List (Text × String)
  version : Digest
  cursor : Text
  complete : Bool

/-- `len(json.dumps(page))`, where a version has 64 digits. -/
def Page.width (page : Page Digest) : Nat :=
  "\x7b\"files\": ".length + filesWidth page.files + ", \"version\": ".length + (64 + 2) + ", \"cursor\": ".length +
    stringWidth page.cursor + ", \"complete\": ".length + (if page.complete then 4 else 5) + "\x7d".length

/-- The content of the file of this path. -/
def Workspace.read (workspace : Workspace) (path : Text) : Option ByteArray :=
  (Keyed.find? File.path path workspace.files).map File.content

/-- The loop of `snapshot_page` over the paths after the cursor. -/
def fillPage (workspace : Workspace) (versions : Versions Digest) (version : Digest) (files : List (Text × String))
    (used : Nat) (nextCursor : Text) : List Text -> Except Fault (Page Digest)
  | [] => .ok ⟨files, version, nextCursor, true⟩
  | path :: rest =>
    match workspace.read path with
    | none => .error (.missing path)
    | some data =>
      if MAX_SOURCE_BYTES < data.size then
        .error (.value "snapshot_limit_exceeded: source exceeds snapshot size")
      else if (Keyed.find? Prod.fst path versions).map Prod.snd ≠ some (Digests.sha256 data) then
        .error (.value "stale_precondition: snapshot page changed")
      else
        match String.fromUTF8? data with
        | none => fillPage workspace versions version files used path rest
        | some text =>
          if 600000 < entryWidth (path, text) then
            .error (.value "snapshot_limit_exceeded: encoded source exceeds page size")
          else if files ≠ [] ∧ (600000 < used + entryWidth (path, text) ∨ 128 ≤ files.length) then
            .ok ⟨files, version, nextCursor, false⟩
          else
            fillPage workspace versions version (files ++ [(path, text)]) (used + entryWidth (path, text)) path
              rest

def pathsAfter (cursor : Text) (versions : Versions Digest) : List Text :=
  ((versions.map Prod.fst).filter fun path => decide (cursor < path)).insertionSort fun first second => first ≤ second

def snapshotPage (workspace : Workspace) (cursor : Text) (asked : Option Digest) : Except Fault (Page Digest) :=
  if cursor ≠ [] ∧ relativePath cursor = none then .error (.path cursor)
  else
    (inventory workspace).bind (fun versions =>
      let version := Digests.contentVersion versions
      if asked.getD version ≠ version then .error (.value "stale_precondition: snapshot content changed")
      else fillPage workspace versions version [] 0 [] (pathsAfter cursor versions))

/-! ## The host -/

/-- `relative_path(p) != p or p <= cursor or p > page["cursor"] or p in files or ...`. -/
def entryFault (versions : Versions Digest) (cursor pageCursor : Text) (files : List (Text × String))
    (entry : Text × String) : Option Fault :=
  if relativePath entry.1 = none then some (.path entry.1)
  else if relativePath entry.1 ≠ some entry.1 ∨ entry.1 ≤ cursor ∨ pageCursor < entry.1 ∨
      (Keyed.find? Prod.fst entry.1 files).isSome ∨
      (Keyed.find? Prod.fst entry.1 versions).map Prod.snd ≠ some (Digests.sha256 (TextFiles.encode entry.2)) then
    some (.value "snapshot_unavailable: invalid snapshot content")
  else none

def pageFault (versions : Versions Digest) (cursor : Text) (files : List (Text × String)) (page : Page Digest) :
    Option Fault :=
  if 128 < page.files.length ∨ 610000 < page.width then
    some (.value "snapshot_unavailable: invalid snapshot page")
  else if page.version ≠ Digests.contentVersion versions then
    some (.value "stale_precondition: snapshot version mismatch")
  else if page.cursor ≠ [] ∧ relativePath page.cursor = none then some (.path page.cursor)
  else page.files.findSome? (entryFault versions cursor page.cursor files)

/-- `files.update(...)`, with the entries that are included. -/
def updated (chosen : Text -> Bool) (files : List (Text × String)) (page : Page Digest) : List (Text × String) :=
  (page.files.filter fun entry => chosen entry.1).foldl (fun kept entry => Keyed.store Prod.fst entry kept) files

/-- The loop of `workspace_snapshot`, for at most so many pages. -/
def collectPages (workspace : Workspace) (chosen : Text -> Bool) (versions : Versions Digest) :
    Nat -> Text -> Option Digest -> List (Text × String) -> Except Fault (List (Text × String) × Digest)
  | 0, _, _, _ => .error .diverges
  | fuel + 1, cursor, version, files =>
    (snapshotPage workspace cursor version).bind (fun page =>
      match pageFault versions cursor files page with
      | some fault => .error fault
      | none =>
        if page.complete then .ok (updated chosen files page, page.version)
        else if page.cursor ≤ cursor then .error (.value "snapshot_unavailable: page made no progress")
        else collectPages workspace chosen versions fuel page.cursor (some page.version) (updated chosen files page))

structure WorkspaceSnapshot (Digest : Type) where
  files : List (Text × String)
  versions : Versions Digest

/-- `workspace_snapshot(context, include=...)`. -/
def workspaceSnapshot (workspace : Workspace) (chosen : Text -> Bool) (fuel : Nat) :
    Except Fault (WorkspaceSnapshot Digest) :=
  (inventory workspace).bind (fun versions =>
    (collectPages workspace chosen versions fuel [] none []).bind (fun collected =>
      (inventory workspace).bind (fun again =>
        if Digests.contentVersion versions ≠ collected.2 ∨ again ≠ versions then
          .error (.value "stale_precondition: workspace changed during snapshot")
        else .ok ⟨collected.1, versions⟩)))

end Worker

end LinuxSandbox
end FixLoop
