import TurtlePlayback.Canvas.Picture
import TurtlePlayback.Command.Path

namespace TurtlePlayback.Command

open Canvas

class FileSystem (m : Type → Type) where
  read : String → m (Except PathFault String)
  makeDirectory : String → m (Except PathFault Unit)
  writePicture : String → Picture → m (Except PathFault Unit)

inductive Entry
  | text (s : String)
  | picture (p : Picture)
  | directory (inside : List (String × Entry))

namespace Entry

def get? : Entry → List String → Option Entry
  | e, [] => some e
  | .directory inside, name :: rest => inside.lookup name >>= (·.get? rest)
  | _, _ :: _ => none

def put (new : Entry) : Entry → List String → Entry
  | _, [] => new
  | .directory inside, name :: rest =>
    let old := (inside.lookup name).getD (.directory [])
    .directory ((name, put new old rest) :: inside.filter (·.1 ≠ name))
  | e, _ :: _ => e

end Entry

structure FileTree where
  top : Entry := .directory []
  here : List String := []

namespace FileTree

def entry? (t : FileTree) (place : List String) : Option Entry :=
  t.top.get? place

def put (t : FileTree) (place : List String) (e : Entry) : FileTree :=
  { t with top := e.put t.top place }

def follow (t : FileTree) (place : List String) : List String → Except PathFault (List String)
  | [] => .ok place
  | part :: rest =>
    match t.entry? place with
    | none => .error .missing
    | some (.text _) | some (.picture _) => .error .notDirectory
    | some (.directory _) =>
      if Path.isStill part then t.follow place rest
      else if part = ".." then t.follow place.dropLast rest
      else if Path.nameFits part then t.follow (place ++ [part]) rest
      else .error .nameTooLong

def start (t : FileTree) (path : String) : List String :=
  if path.startsWith "/" then [] else t.here

def place (t : FileTree) (path : String) : Except PathFault (List String) :=
  if Path.fits path then t.follow (t.start path) (path.splitOn "/") else .error .nameTooLong

def read (t : FileTree) (path : String) : Except PathFault String := do
  match t.entry? (← t.place path) with
  | none => .error .missing
  | some (.directory _) => .error .isDirectory
  | some (.text s) => .ok s
  | some (.picture _) => .error (.other "stream did not contain valid UTF-8")

def makeFrom (t : FileTree) (made : Bool) (place : List String) :
    List String → Except PathFault FileTree
  | [] => .ok t
  | part :: rest =>
    if Path.isStill part then t.makeFrom made place rest
    else if part = ".." then t.makeFrom made place.dropLast rest
    else if Path.nameFits part then
      let place := place ++ [part]
      match t.entry? place with
      | none => (t.put place (.directory [])).makeFrom true place rest
      | some (.directory _) => t.makeFrom made place rest
      | some (.text _) | some (.picture _) =>
        .error (if made || rest.isEmpty then .alreadyThere else .notDirectory)
    else .error .nameTooLong

def makeDirectory (t : FileTree) (path : String) : Except PathFault FileTree :=
  if Path.fits path then t.makeFrom false (t.start path) (path.splitOn "/") else .error .nameTooLong

def write (t : FileTree) (path : String) (e : Entry) : Except PathFault FileTree := do
  unless Path.fits path do throw .nameTooLong
  let behind := (path.splitOn "/").reverse
  match behind.dropWhile (· = "") with
  | [] => .error .isDirectory
  | name :: before =>
    let place ← t.follow (t.start path) (before.reverse ++ ["."])
    if name = "." ∨ name = ".." ∨ behind.head? = some "" then .error .isDirectory
    else if !Path.nameFits name then .error .nameTooLong
    else
      match t.entry? (place ++ [name]) with
      | some (.directory _) => .error .isDirectory
      | _ => .ok (t.put (place ++ [name]) e)

def picture? (t : FileTree) (path : String) : Option Picture :=
  match (t.place path).toOption.bind t.entry? with
  | some (.picture p) => some p
  | _ => none

def ofTexts (texts : List (String × String)) : FileTree :=
  let t : FileTree := { here := ["work"] }
  let t := (t.put ["dev", "null"] (.text "")).put t.here (.directory [])
  texts.foldl (fun t (path, text) =>
    let t := ((Path.parent? path).bind fun d => (t.makeDirectory d).toOption).getD t
    ((t.write path (.text text)).toOption).getD t) t

end FileTree

instance : FileSystem (StateM FileTree) where
  read path := return (← get).read path
  makeDirectory path := modifyGet fun t =>
    match t.makeDirectory path with
    | .ok t => (.ok (), t)
    | .error f => (.error f, t)
  writePicture path p := modifyGet fun t =>
    match t.write path (.picture p) with
    | .ok t => (.ok (), t)
    | .error f => (.error f, t)

end TurtlePlayback.Command
