/-! File systems, as far as the bridge asks about them. -/

namespace ArrayBridge

/-- What the bridge can ask about files. -/
structure FileSystem where
  isDirectory : String → Bool
  isPresent : String → Bool
  /-- The text of a file, or why it cannot be read. -/
  read : String → Except String String
  /-- Whether a file can be loaded as a library. -/
  canLoad : String → Bool
  /-- The directory in which the program is installed. -/
  installation : Option String

namespace FileSystem

/-- The names on the way to a file, from the root. -/
abbrev Location := List String

/-- Follows one part of a path. An empty part and a single dot stay where they
are, and nothing is above the root. -/
def enter (location : Location) (part : String) : Location :=
  if part = "" ∨ part = "." then location
  else if part = ".." then location.dropLast
  else location ++ [part]

/-- What a file holds. -/
inductive Body where
  | text (value : String)
  /-- Bytes that are not a text. -/
  | binary
  deriving DecidableEq, Inhabited

/-- The entries of a file system. -/
structure Entries where
  directories : List Location
  files : List (Location × Body)
  /-- Other places of directories, with the directories that are there. -/
  links : List (Location × Location)
  /-- The directory at which relative paths start. -/
  working : Location
  deriving DecidableEq, Inhabited

/-- What a path can name. -/
inductive Named where
  | directory
  | file (body : Body)
  deriving DecidableEq, Inhabited

/-- Why a path cannot be read as a file. -/
inductive PathFault where
  | missing
  | throughFile
  | isDirectory
  | tooLong
  | tooManyLinks
  | nullCharacter
  | notText
  deriving DecidableEq, Inhabited

/-- The text of a fault. -/
def PathFault.reason : PathFault → String
  | missing => "No such file or directory (os error 2)"
  | throughFile => "Not a directory (os error 20)"
  | isDirectory => "Is a directory (os error 21)"
  | tooLong => "File name too long (os error 36)"
  | tooManyLinks => "Too many levels of symbolic links (os error 40)"
  | nullCharacter => "file name contained an unexpected NUL byte"
  | notText => "stream did not contain valid UTF-8"

/-- The size in bytes that the name of an entry does not exceed. -/
def nameLimit : Nat := 255

/-- The size in bytes that a path stays below. -/
def pathLimit : Nat := 4096

/-- The number of links that are followed in a path. -/
def linkLimit : Nat := 40

namespace Entries

/-- Follows the parts of a path from a directory, but not more links than the limit
says. -/
def follow (entries : Entries) : (limit : Nat) → Location → List String → Except PathFault Named
  | _, _, [] => .ok .directory
  | limit, location, part :: parts =>
    let next := enter location part
    if next ∈ entries.directories then entries.follow limit next parts
    else match entries.links.lookup next with
      | some target =>
        if limit = 0 then .error .tooManyLinks else entries.follow (limit - 1) target parts
      | none =>
        if nameLimit < part.utf8ByteSize then .error .tooLong
        else match entries.files.lookup next with
          | none => .error .missing
          | some body => if parts.isEmpty then .ok (.file body) else .error .throughFile

/-- What a path names. The empty path names nothing. -/
def find (entries : Entries) (path : String) : Except PathFault Named :=
  if path.toList.contains '\x00' then .error .nullCharacter
  else if pathLimit ≤ path.utf8ByteSize then .error .tooLong
  else if path = "" then .error .missing
  else
    let start := if path.toList.head? = some '/' then [] else entries.working
    entries.follow linkLimit start ((path.toList.splitOn '/').map String.ofList)

def isDirectory (entries : Entries) (path : String) : Bool :=
  match entries.find path with
  | .ok .directory => true
  | _ => false

def isPresent (entries : Entries) (path : String) : Bool :=
  match entries.find path with
  | .ok _ => true
  | .error _ => false

/-- The text of the file that a path names, or why there is none. -/
def read (entries : Entries) (path : String) : Except String String :=
  match entries.find path with
  | .ok (.file (.text value)) => .ok value
  | .ok (.file .binary) => .error PathFault.notText.reason
  | .ok .directory => .error PathFault.isDirectory.reason
  | .error fault => .error fault.reason

end Entries

/-- A file system that has the given entries and nothing else. The program is
installed at the root, and the only library is the program itself, which the empty
path names. -/
def ofEntries (entries : Entries) : FileSystem where
  isDirectory := entries.isDirectory
  isPresent := entries.isPresent
  read := entries.read
  canLoad path := path.isEmpty
  installation := some "/"

/-- The entries of one directory. -/
def below (directory : Location) (names : List String) : List Location :=
  names.map fun name => directory ++ [name]

/-- The directory at which relative paths start in a common system. Its names are
empty. Empty parts of a path stay where they are, so no path from the root names
it. -/
def commonWorking : Location := ["", ""]

/-- The place of what a system tells about the running program. -/
def commonProcess : Location := ["proc", ""]

/-- Directories that every system has. -/
def commonDirectories : List Location :=
  [[], [""], commonWorking]
    ++ below [] ["boot", "dev", "etc", "home", "media", "mnt", "opt", "proc", "root", "run", "srv",
      "sys", "tmp", "usr", "var"]
    ++ below ["dev"] ["pts", "shm"]
    ++ below ["etc"] ["alternatives", "apt", "cron.d", "default", "dpkg", "init.d", "kernel",
      "ld.so.conf.d", "opt", "pam.d", "profile.d", "security", "skel", "ssl", "systemd", "terminfo"]
    ++ below ["proc"] ["", "1", "bus", "driver", "fs", "irq", "sys", "sysvipc", "tty"]
    ++ below commonProcess ["attr", "fd", "fdinfo", "net", "ns", "task"]
    ++ below ["proc", "sys"] ["dev", "fs", "kernel", "net", "vm"]
    ++ below ["run"] ["lock"]
    ++ below ["sys"] ["block", "bus", "class", "dev", "devices", "firmware", "fs", "kernel", "module",
      "power"]
    ++ below ["usr"] ["bin", "games", "include", "lib", "lib64", "libexec", "local", "sbin", "share",
      "src"]
    ++ below ["usr", "local"] ["bin", "etc", "games", "include", "lib", "sbin", "share", "src"]
    ++ below ["usr", "local", "share"] ["man"]
    ++ below ["var"] ["backups", "cache", "lib", "local", "log", "mail", "opt", "spool", "tmp"]

/-- Other places of directories that every system has. -/
def commonLinks : List (Location × Location) :=
  [(["bin"], ["usr", "bin"]), (["lib"], ["usr", "lib"]), (["lib64"], ["usr", "lib64"]),
    (["sbin"], ["usr", "sbin"]), (["usr", "local", "man"], ["usr", "local", "share", "man"]),
    (["var", "lock"], ["run", "lock"]), (["var", "run"], ["run"]),
    (["dev", "fd"], commonProcess ++ ["fd"]), (["proc", "net"], commonProcess ++ ["net"]),
    (["proc", "self"], commonProcess), (["proc", "thread-self"], commonProcess),
    (commonProcess ++ ["cwd"], commonWorking), (commonProcess ++ ["root"], [])]

/-- Files that every system has and that start with a letter or a mark. What else
they hold does not matter. -/
def commonTexts : List Location :=
  below ["dev"] ["full", "ptmx", "random", "stderr", "stdin", "stdout", "tty", "urandom", "zero"]
    ++ below ["etc"] ["bash.bashrc", "debian_version", "environment", "fstab", "group", "host.conf",
      "hostname", "issue", "ld.so.conf", "login.defs", "nsswitch.conf", "os-release", "passwd",
      "profile", "resolv.conf", "shadow", "shells"]
    ++ below ["proc"] ["cmdline", "cpuinfo", "devices", "loadavg", "meminfo", "mounts", "partitions",
      "stat", "swaps", "uptime", "version"]
    ++ below commonProcess ["cmdline", "comm", "environ", "limits", "maps", "mounts", "stat",
      "statm", "status"]
    ++ below ["usr", "lib"] ["os-release"]

/-- Files that every system has and that are not texts. -/
def commonBinaries : List Location :=
  below ["usr", "bin"] programs ++ [["etc", "ld.so.cache"], commonProcess ++ ["exe"]]
where
  programs : List String := ["bash", "cat", "echo", "env", "false", "ls", "sh", "true"]

/-- A text that stands for one that does not matter. It is not a configuration. -/
def placeholder : String := "?"

/-- Files that every system has and whose first characters are known. -/
def knownFiles : List (Location × Body) :=
  [(["dev", "null"], .text ""), (["etc", "hosts"], .text "127.0.0.1\tlocalhost\n"),
    (["proc", "filesystems"], .text "nodev\tsysfs\n")]

/-- The entries of a system with the given files of its own. -/
def commonEntries (files : List (Location × Body)) : Entries :=
  ⟨commonDirectories,
    files ++ knownFiles ++ (commonTexts.map fun location => (location, .text placeholder))
      ++ commonBinaries.map fun location => (location, .binary),
    commonLinks, commonWorking⟩

/-- A system with the common entries and the given files. -/
def common (files : List (Location × Body)) : FileSystem := ofEntries (commonEntries files)

end FileSystem

end ArrayBridge
