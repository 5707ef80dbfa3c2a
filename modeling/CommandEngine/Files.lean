/-!
# The host file system as the configuration loader sees it

Loading a configuration reads one file. The loader sees the host as a fixed tree: the root and the usual system
directories are directories, `/dev/null` is an empty file, the shell is a file that is not text, the working directory is
an empty directory of its own, and no other path exists. A path is resolved component by component, so a path that goes
through a file is refused as not a directory. Reading a file that is not UTF-8 text fails.
-/

namespace CommandEngine

/-- Why reading a file failed, with the operating system's error number. -/
inductive IoError where
  | notFound
  | isADirectory
  | notADirectory
  /-- The file's bytes are not UTF-8 text. -/
  | notText
  deriving DecidableEq, Repr, Inhabited

namespace IoError

/-- The system's description of the error followed by its number; a file that is not text is refused by the reader, not
the system, and has no number. -/
def message : IoError → String
  | .notFound => "No such file or directory (os error 2)"
  | .isADirectory => "Is a directory (os error 21)"
  | .notADirectory => "Not a directory (os error 20)"
  | .notText => "stream did not contain valid UTF-8"

end IoError

/-- What a path names in the host tree. -/
inductive FileEntry where
  | directory
  | file (contents : String)
  /-- A file whose bytes are not UTF-8 text, such as a program. -/
  | binary
  deriving Repr

/-- A file tree given as its absolute paths, each without a trailing slash, the root being `/`. -/
structure FileTree where
  entries : List (String × FileEntry)
  /-- The directory that relative paths start from. -/
  workingDirectory : String := "/"

namespace FileTree

/-- The system directories of the host. -/
def systemDirectories : List String :=
  ["/", "/bin", "/boot", "/dev", "/etc", "/home", "/lib", "/lib64", "/media", "/mnt", "/opt", "/proc", "/root", "/run",
    "/sbin", "/srv", "/sys", "/tmp", "/usr", "/usr/bin", "/usr/include", "/usr/lib", "/usr/lib64", "/usr/libexec",
    "/usr/local", "/usr/sbin", "/usr/share", "/usr/src", "/var", "/var/lib", "/var/log", "/var/tmp"]

/-- The directory the loader runs in; it holds nothing. -/
def hostWorkingDirectory : String := "/work"

/-- The host as the loader sees it. -/
def host : FileTree where
  entries := systemDirectories.map (·, .directory) ++
    [(hostWorkingDirectory, .directory), ("/dev/null", .file ""), ("/bin/sh", .binary), ("/usr/bin/sh", .binary)]
  workingDirectory := hostWorkingDirectory

/-- What the absolute path `p` names, if anything. -/
def lookup (t : FileTree) (p : String) : Option FileEntry :=
  (t.entries.find? (·.1 = p)).map (·.2)

/-- The absolute path of the directory `dir` joined with the component `name`. -/
def join (dir name : String) : String :=
  if dir = "/" then "/" ++ name else dir ++ "/" ++ name

/-- Walks the components of a path from `dir`; `.` stays and `..` goes up. -/
def walk (t : FileTree) (dir : String) : List String → Except IoError String
  | [] => .ok dir
  | c :: rest =>
    if c = "" ∨ c = "." then t.walk dir rest
    else
      let next :=
        if c = ".." then
          match (dir.splitOn "/").dropLast.filter (· ≠ "") with
          | [] => "/"
          | parts => "/" ++ "/".intercalate parts
        else join dir c
      match t.lookup next with
      | some .directory => t.walk next rest
      | some _ => if rest.all (· = "") then .ok next else .error .notADirectory
      | none => .error .notFound

/-- The contents of the file at path `p`. -/
def read (t : FileTree) (p : String) : Except IoError String :=
  if p = "" then .error .notFound
  else
    let start := if p.startsWith "/" then "/" else t.workingDirectory
    match t.walk start (p.splitOn "/") with
    | .error e => .error e
    | .ok found =>
      match t.lookup found with
      | some (.file contents) =>
        if p.endsWith "/" then .error .notADirectory else .ok contents
      | some .binary => if p.endsWith "/" then .error .notADirectory else .error .notText
      | some .directory => .error .isADirectory
      | none => .error .notFound

end FileTree

end CommandEngine
