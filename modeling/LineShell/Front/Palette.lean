import LineShell.Settings.Basic

namespace LineShell.Palette

def base : List (Text × Text) := [
  ("completion-menu", "bg:#111111 #d0d0d0"),
  ("completion-menu.completion", "bg:#111111 #d0d0d0"),
  ("completion-menu.completion.current", "bg:#303030 #ffffff bold"),
  ("completion-menu.meta.completion", "bg:#111111 #808080"),
  ("completion-menu.meta.completion.current", "bg:#303030 #a0a0a0")]

-- A class that is there keeps its place; a new one comes last.
def set (name style : Text) : List (Text × Text) → List (Text × Text)
  | [] => [(name, style)]
  | (n, s) :: rest => if n = name then (name, style) :: rest else (n, s) :: set name style rest

def overrideWith (table : List (Text × Text)) : Key × Value → List (Text × Text)
  | (.text name, .text style) => set name style table
  | _ => table

def ofSettings (settings : Option Settings) : List (Text × Text) :=
  match settings.bind fun settings => settings.find? "ui.theme.style" with
  | some (.map fields) => fields.foldl overrideWith base
  | _ => base

end LineShell.Palette
