/-!
# Places in the file tree

The directories, links, devices and programs that every system has, and the place that a path leads
to. Links are followed wherever they stand, and `..` goes up from where the links have led. Part of
the stand-in for the system in which connections to processes are tried; no theorem is about it.
-/
namespace ProofPanel.Host

/-- The names that lead to a place, the innermost first; the root has none. -/
abbrev Place := List String

inductive Device
  /-- Empty, and takes everything. -/
  | null
  /-- Endless, and takes everything. -/
  | zero
  /-- Endless, and takes nothing. -/
  | full
  /-- Whatever the descriptor is open on. -/
  | descriptor (n : Nat)
deriving DecidableEq

inductive Entry
  | directory
  | file
  /-- A file that can be run. -/
  | program
  | device (d : Device)
  | link (target : String)
deriving DecidableEq

namespace Place

def names (path : String) : List String := (path.toList.splitOn '/').map .ofList

def isAbsolute (path : String) : Bool := path.toList.head? = some '/'

/-- The place that an absolute path without links, dots and doubled slashes names. -/
def ofPath (path : String) : Place := ((names path).filter (· != "")).reverse

def toPath : Place → String
  | [] => "/"
  | [name] => "/" ++ name
  | name :: rest => toPath rest ++ "/" ++ name

def directories : List Place :=
  ["/", "/boot", "/dev", "/dev/pts", "/dev/shm", "/etc", "/etc/alternatives", "/etc/default",
   "/home", "/media", "/mnt", "/opt", "/proc", "/root", "/run", "/run/lock", "/srv", "/sys", "/tmp",
   "/usr", "/usr/bin", "/usr/games", "/usr/include", "/usr/lib", "/usr/lib64", "/usr/libexec",
   "/usr/local", "/usr/local/bin", "/usr/local/etc", "/usr/local/games", "/usr/local/include",
   "/usr/local/lib", "/usr/local/sbin", "/usr/local/share", "/usr/local/src", "/usr/sbin",
   "/usr/share", "/usr/share/doc", "/usr/src", "/var", "/var/backups", "/var/cache", "/var/lib",
   "/var/local", "/var/log", "/var/mail", "/var/opt", "/var/spool", "/var/tmp"].map ofPath

def links : List (Place × String) :=
  [("/bin", "usr/bin"), ("/lib", "usr/lib"), ("/lib64", "usr/lib64"), ("/sbin", "usr/sbin"),
   ("/usr/bin/sh", "dash"), ("/usr/local/man", "share/man"), ("/var/lock", "/run/lock"),
   ("/var/run", "/run"), ("/var/spool/mail", "../mail"), ("/dev/fd", "/proc/self/fd"),
   ("/dev/stdin", "/proc/self/fd/0"), ("/dev/stdout", "/proc/self/fd/1"),
   ("/dev/stderr", "/proc/self/fd/2")].map fun (path, target) => (ofPath path, target)

def files : List Place :=
  ["/etc/fstab", "/etc/group", "/etc/hostname", "/etc/hosts", "/etc/passwd", "/etc/profile",
   "/etc/resolv.conf", "/etc/shadow", "/etc/shells"].map ofPath

def programs : Place := ofPath "/usr/bin"

def programNames : List String :=
  ["basename", "cat", "cut", "dash", "dirname", "echo", "env", "false", "head", "printf", "pwd",
   "seq", "sleep", "sort", "tac", "tail", "tee", "test", "tr", "true", "uniq", "wc", "yes",
   "["]

def devices : List (Place × Device) :=
  [("/dev/null", .null), ("/dev/zero", .zero), ("/dev/full", .full)].map
    fun (path, device) => (ofPath path, device)

def entry? (place : Place) : Option Entry :=
  match place with
  | name :: parent =>
    if parent = programs && programNames.contains name then some .program
    else if directories.contains place || place = ["self", "proc"] || place = ["fd", "self", "proc"]
    then some .directory
    else if files.contains place then some .file
    else if parent = ["fd", "self", "proc"] then name.toNat?.map fun n => .device (.descriptor n)
    else
      match links.find? (·.1 == place), devices.find? (·.1 == place) with
      | some (_, target), _ => some (.link target)
      | none, some (_, device) => some (.device device)
      | none, none => none
  | [] => some .directory

def maxLinks : Nat := 40

def follow (links : Nat) (here : Place) (todo : List String) : Option Place :=
  match todo with
  | [] => some here
  | name :: rest =>
    if name = "" || name = "." then follow links here rest
    else if name = ".." then follow links here.tail rest
    else
      match entry? (name :: here) with
      | none => none
      | some .directory => follow links (name :: here) rest
      | some (.link target) =>
        if links = 0 then none
        else
          follow (links - 1) (if isAbsolute target then [] else here) (names target ++ rest)
      | some _ => if rest.isEmpty then some (name :: here) else none
termination_by (links, todo.length)

def resolve? (here : Place) (path : String) : Option Place :=
  if path.isEmpty || path.toList.contains '\x00' then none
  else follow maxLinks (if isAbsolute path then [] else here) (names path)

def directory? (here : Place) (path : String) : Option Place :=
  (resolve? here path).filter fun place => entry? place == some .directory

/-- The program that a name stands for: one with a slash is a path, any other is looked for where
programs are. -/
def program? (here : Place) (name : String) : Option String :=
  let found := if name.toList.contains '/' then resolve? here name
    else if name.isEmpty then none
    else resolve? programs name
  match found with
  | some (name :: parent) => if entry? (name :: parent) = some .program then some name else none
  | _ => none

end Place

end ProofPanel.Host
