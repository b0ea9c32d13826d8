import Miaou.CommandLine.Source

/-!
A working directory seen as a value. `Directory.read` walks along a path, name by name, and gives
the text of the file at its end. Around the working directory there are other directories, of
which nothing is known but that they are there.
-/

namespace Miaou.CommandLine

inductive Node where
  | file (content : ByteArray)
  | directory (entries : List (String × Node))

/-- Where a walk stands. -/
inductive Place where
  /-- At a node below the working directory, with the directories around it, innermost first. -/
  | within (node : Node) (around : List (List (String × Node)))
  /-- In a directory that the working directory does not hold. -/
  | outside

namespace Directory

def longestName : Nat := 255

def longestPath : Nat := 4095

def names (path : String) : List String :=
  let parts := path.toList.splitOn '/'
  let named := (parts.filter (· ≠ [])).map String.ofList
  if parts.getLast? = some [] then named ++ ["."] else named

/-- One name further. One dot stays and two dots go to the directory around. -/
def step : Place → String → Except ReadError Place
  | .within (.file _) _, _ => .error .notDirectory
  | .within (.directory entries) around, name =>
    if name = "." then .ok (.within (.directory entries) around)
    else if name = ".." then
      match around with
      | [] => .ok .outside
      | outer :: more => .ok (.within (.directory outer) more)
    else if longestName < name.utf8ByteSize then .error .nameTooLong
    else
      match entries.lookup name with
      | none => .error .missing
      | some node => .ok (.within node (entries :: around))
  | .outside, name =>
    if name = "." || name = ".." then .ok .outside
    else if longestName < name.utf8ByteSize then .error .nameTooLong
    else .error .missing

def walk : Place → List String → Except ReadError Place
  | place, [] => .ok place
  | place, name :: more =>
    match step place name with
    | .ok next => walk next more
    | .error e => .error e

def origin (entries : List (String × Node)) (path : String) : Place :=
  if path.toList.head? = some '/' then .outside else .within (.directory entries) []

def textAt : Place → Except ReadError String
  | .outside => .error .isDirectory
  | .within (.directory _) _ => .error .isDirectory
  | .within (.file content) _ =>
    match String.fromUTF8? content with
    | some text => .ok text
    | none => .error .notText

def read (entries : List (String × Node)) (path : String) : Except ReadError String :=
  if longestPath < path.utf8ByteSize then .error .nameTooLong
  else
    match walk (origin entries path) (names path) with
    | .ok place => textAt place
    | .error e => .error e

end Directory

end Miaou.CommandLine
