import PluginBridge.Wire.MessageError

/-!
# Filesystem requests

The body of a request is the protocol version `5`, a command character and a path, which runs to
the end of the message:

* `5D` and a path asks for the children of a directory,
* `5S` and a path asks whether the path names a directory.

`parse` and `print` are inverse to each other: `parse_print` and `print_of_parse`.
-/

namespace PluginBridge

/-- A question of the plugin about the filesystem. -/
inductive FileRequest where
  | list (path : String)
  | stat (path : String)
  deriving DecidableEq, Repr, Inhabited

namespace FileRequest

/-- The path that is asked about, as the plugin wrote it. -/
def path : FileRequest → String
  | list path => path
  | stat path => path

/-- The character that names the kind of request. -/
def command : FileRequest → Char
  | list _ => 'D'
  | stat _ => 'S'

/-- The body of a request. -/
def print (request : FileRequest) : String :=
  String.ofList ('5' :: request.command :: request.path.toList)

/-- Reads the body of a request. -/
def parse (body : String) : Except MessageError FileRequest :=
  match body.toList with
  | '5' :: command :: path =>
    if command = 'D' then .ok (list (String.ofList path))
    else if command = 'S' then .ok (stat (String.ofList path))
    else .error (.unknownCommand command)
  | ['5'] => .error .missingCommand
  | _ => .error (.unknownRpc body)

theorem parse_print (request : FileRequest) : parse request.print = .ok request := by
  cases request <;> simp [parse, print, command, path]

theorem print_of_parse {body : String} {request : FileRequest} (h : parse body = .ok request) :
    request.print = body := by
  unfold parse at h
  split at h
  · rename_i heq
    split at h
    · injection h with h; subst h
      exact String.toList_inj.1 (by simp_all [print, command, path])
    split at h
    · injection h with h; subst h
      exact String.toList_inj.1 (by simp_all [print, command, path])
    · cases h
  · cases h
  · cases h

end FileRequest

end PluginBridge
