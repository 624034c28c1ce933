import PipeCall.Counterparty.Octets

/-!
# Places

The directories, files and programs that are there wherever counterparties run. `Place.resolve`
follows a path to its place, and `Place.find` looks for the program of a command: the place of a
path, or else a program in one of the directories of a search path.
-/

namespace PipeCall.Counterparty

/-- Why there is nothing at the end of a path, or nothing that can be run. -/
inductive PlaceFault where
  | missing
  /-- What is there cannot be run. -/
  | forbidden
  /-- The path goes on after something that is no directory. -/
  | notDirectory
  /-- The path or a name in it is too long. -/
  | tooLong
  /-- There is a NUL character where none may be. -/
  | nul
  deriving DecidableEq, Repr

/-- How a fault is reported. -/
def PlaceFault.text : PlaceFault → String
  | .missing => "No such file or directory (os error 2)"
  | .forbidden => "Permission denied (os error 13)"
  | .notDirectory => "Not a directory (os error 20)"
  | .tooLong => "File name too long (os error 36)"
  | .nul => "nul byte found in provided data"

/-- What is at the end of a path. -/
inductive Place where
  | directory (path : List String)
  | file (path : List String)
  | program (name : String)
  deriving DecidableEq, Repr

namespace Place

/-- The programs that there are. -/
def programs : List String :=
  ["[", "arch", "awk", "b2sum", "base32", "base64", "basename", "basenc", "bash", "cat", "chcon",
    "chgrp", "chmod", "chown", "cksum", "cmp", "comm", "cp", "csplit", "cut", "dash", "date",
    "dd", "df", "diff", "dir", "dircolors", "dirname", "du", "echo", "egrep", "env", "expand",
    "expr", "factor", "false", "fgrep", "find", "fmt", "fold", "grep", "groups", "gunzip", "gzip",
    "head", "hostid", "hostname", "id", "install", "join", "kill", "link", "ln", "logname", "ls",
    "mawk", "md5sum", "mkdir", "mkfifo", "mknod", "mktemp", "more", "mv", "nice", "nl", "nohup",
    "nproc", "numfmt", "od", "paste", "pathchk", "perl", "pinky", "pr", "printenv", "printf",
    "ptx", "pwd", "readlink", "realpath", "rev", "rm", "rmdir", "runcon", "sed", "seq", "setsid",
    "sh", "sha1sum", "sha224sum", "sha256sum", "sha384sum", "sha512sum", "shred", "shuf", "sleep",
    "sort", "split", "stat", "stdbuf", "stty", "sum", "sync", "tac", "tail", "tar", "tee", "test",
    "timeout", "touch", "tr", "true", "truncate", "tsort", "tty", "uname", "unexpand", "uniq",
    "unlink", "uptime", "users", "vdir", "wc", "who", "whoami", "xargs", "yes", "zcat"]

/-- The directories with other places in them: the names of directories, and the names of files. -/
def contents (directory : List String) : List String × List String :=
  match directory with
  | [] =>
    (["bin", "boot", "dev", "etc", "home", "lib", "lib64", "media", "mnt", "opt", "proc", "root",
      "run", "sbin", "srv", "sys", "tmp", "usr", "var"], [])
  | ["usr"] =>
    (["bin", "games", "include", "lib", "lib64", "libexec", "local", "sbin", "share", "src"], [])
  | ["usr", "local"] =>
    (["bin", "etc", "games", "include", "lib", "man", "sbin", "share", "src"], [])
  | ["usr", "share"] => (["doc", "info", "man", "misc", "zoneinfo"], [])
  | ["usr", "lib"] => (["apt", "dpkg", "locale", "x86_64-linux-gnu"], ["os-release"])
  | ["var"] =>
    (["backups", "cache", "lib", "local", "lock", "log", "mail", "opt", "run", "spool", "tmp"], [])
  | ["var", "lib"] => (["apt", "dpkg", "misc"], [])
  | ["var", "cache"] => (["apt", "debconf"], [])
  | ["run"] => (["lock"], [])
  | ["dev"] =>
    (["fd", "mqueue", "pts", "shm"],
      ["console", "full", "null", "ptmx", "random", "stderr", "stdin", "stdout", "tty", "urandom",
        "zero"])
  | ["etc"] =>
    (["alternatives", "apt", "cron.d", "cron.daily", "default", "dpkg", "init.d", "ld.so.conf.d",
      "logrotate.d", "opt", "pam.d", "profile.d", "security", "skel", "ssl", "systemd"],
      ["bash.bashrc", "debconf.conf", "debian_version", "deluser.conf", "environment", "fstab",
        "gai.conf", "group", "gshadow", "host.conf", "hostname", "hosts", "issue", "issue.net",
        "ld.so.cache", "ld.so.conf", "libaudit.conf", "localtime", "login.defs", "machine-id",
        "mke2fs.conf", "motd", "mtab", "nsswitch.conf", "os-release", "pam.conf", "passwd",
        "profile", "resolv.conf", "shadow", "shells", "subgid", "subuid", "timezone", "xattr.conf"])
  | ["proc"] =>
    (["1", "bus", "fs", "irq", "net", "self", "sys", "thread-self"],
      ["cmdline", "cpuinfo", "devices", "filesystems", "interrupts", "loadavg", "meminfo",
        "modules", "mounts", "stat", "swaps", "uptime", "version", "vmstat"])
  | ["proc", "self"] => (["fd", "net", "ns", "task"], ["cmdline", "environ", "maps", "status"])
  | ["sys"] => (["block", "bus", "class", "dev", "devices", "fs", "kernel", "module", "power"], [])
  | _ => ([], [])

/-- The directory that a path means which is another name for one. -/
def target (directory : List String) : List String :=
  match directory with
  | ["bin"] => ["usr", "bin"]
  | ["sbin"] => ["usr", "sbin"]
  | ["lib"] => ["usr", "lib"]
  | ["lib64"] => ["usr", "lib64"]
  | ["var", "run"] => ["run"]
  | ["var", "lock"] => ["run", "lock"]
  | path => path

/-- The place of a name in a directory. -/
def child (directory : List String) (name : String) : Except PlaceFault Place :=
  let (directories, files) := contents directory
  if directories.contains name then .ok (.directory (target (directory ++ [name])))
  else if files.contains name then .ok (.file (directory ++ [name]))
  else if directory = ["usr", "bin"] ∧ programs.contains name then .ok (.program name)
  else .error .missing

/-- Follows the names of a path from a place on. -/
def follow : Place → List Octets → Except PlaceFault Place
  | place, [] => .ok place
  | .directory path, name :: names =>
    if name = [] ∨ name = ['.'] then follow (.directory path) names
    else if name = ['.', '.'] then follow (.directory path.dropLast) names
    else if 255 < name.length then .error .tooLong
    else
      match child path (String.ofList name) with
      | .ok place => follow place names
      | .error fault => .error fault
  | _, _ :: _ => .error .notDirectory

/-- The directory that paths start from which do not begin with a slash. -/
def here : Place := .directory ["work"]

/-- The place at the end of a path. -/
def resolve (path : Octets) : Except PlaceFault Place :=
  if path = [] then .error .missing
  else if 4096 ≤ path.length then .error .tooLong
  else
    let start := if path.head? = some '/' then .directory [] else here
    follow start (Octets.splitOn '/' path)

/-- The program at the end of a path. -/
def programAt (path : Octets) : Except PlaceFault String :=
  match resolve path with
  | .ok (.program name) => .ok name
  | .ok _ => .error .forbidden
  | .error fault => .error fault

/-- The search path that there is if none is given. -/
def usualPath : Octets := "/usr/local/sbin:/usr/local/bin:/usr/sbin:/usr/bin:/sbin:/bin".toList

/-- The program of a name in the first of some directories that has one. A directory where it is not
is passed over, and so is one where it cannot be run; but then that is what is reported. -/
def search (name : Octets) : List Octets → Option PlaceFault → Except PlaceFault String
  | [], fault => .error (fault.getD .missing)
  | folder :: rest, fault =>
    match programAt (if folder = [] then name else folder ++ '/' :: name) with
    | .ok found => .ok found
    | .error .forbidden => search name rest (some .forbidden)
    | .error .tooLong => .error .tooLong
    | .error other =>
      search name rest (some (if fault = some .forbidden then .forbidden else other))

/-- The program of a command. -/
def find (searchPath command : Octets) : Except PlaceFault String :=
  if command = [] then .error .missing
  else if command.contains '/' then programAt command
  else search command (Octets.splitOn ':' searchPath) none

end Place

end PipeCall.Counterparty
