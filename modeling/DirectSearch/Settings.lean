import DirectSearch.Reading
/-!
# Settings — the options of a search, by name

Each kind of search has a table of settings with a default for every
name. A caller overrides them by name; a name that the table does not
have is refused, and the overrides before it stay. Any value may be
stated: whether it serves is seen when it is read.
-/

namespace DirectSearch

/-- Which table of settings. -/
inductive SettingsKind where
  /-- What every search has. -/
  | common
  /-- The mesh search. -/
  | mesh
  /-- The simplex search. -/
  | simplex
deriving DecidableEq

namespace SettingsKind

/-- The name of the table in messages. -/
def owner : SettingsKind → String
  | common => "SolverConfig"
  | mesh => "MADSConfig"
  | simplex => "NelderMeadConfig"

/-- `√(2⁻⁵²)`, the default of the tolerances. -/
def defaultTolerance : Float := (Scalar.eps : Float).sqrt

/-- The settings of a table that every search has, with the default of
the evaluation budget. -/
def shared (maxEval : Value) : List (String × Value) := [
  ("atol", .real defaultTolerance),
  ("rtol", .real defaultTolerance),
  ("max_eval", maxEval),
  ("max_time", .real 30.0),
  ("max_iter", .whole (-1)),
  ("verbose", .flag false)]

/-- Names and defaults. -/
def defaults : SettingsKind → List (String × Value)
  | common => shared (.whole (-1))
  | mesh => shared .absent ++ [
      ("greedy", .flag false),
      ("stop_with_small_step", .flag false),
      ("steptol", .real 1e-8),
      ("estimate_slope", .flag false),
      ("seed", .absent),
      ("directions", .text "gaussian")]
  | simplex => shared (.whole (-1)) ++ [
      ("tol", .real defaultTolerance),
      ("ref", .real (-1.0)),
      ("exp", .real (-2.0)),
      ("ocn", .real (-0.5)),
      ("icn", .real 0.5),
      ("oriented_restart", .flag true),
      ("max_restart", .whole 3),
      ("alpha", .real 1e-4),
      ("vertices", .absent)]

end SettingsKind

/-- A table of settings. -/
structure Settings where
  kind : SettingsKind
  /-- The settings in the order of their table. -/
  entries : List (String × Value)

namespace Settings

/-- The table with every default. -/
def default (kind : SettingsKind) : Settings := ⟨kind, kind.defaults⟩

/-- Whether the table has a setting of this name. -/
def has (s : Settings) (key : String) : Bool := s.entries.any (·.1 == key)

/-- The value of a setting. -/
def get (s : Settings) (key : String) : Value := (s.entries.lookup key).getD .absent

/-- One setting overridden. -/
def set (s : Settings) (key : String) (value : Value) : Settings :=
  { s with entries := s.entries.map fun e => if e.1 == key then (key, value) else e }

/-- **Overrides by name, in order.** The first unknown name ends the
update with a fault; the table that comes with it has the overrides
before that name. -/
def update (s : Settings) : List (String × Value) → Settings × Option Fault
  | [] => (s, none)
  | (key, value) :: rest =>
    if s.has key then (s.set key value).update rest
    else (s, some (.unknownSetting key s.kind.owner))

/-- The overridden table, or the fault. -/
def updated (s : Settings) (options : List (String × Value)) : Except Fault Settings :=
  match s.update options with
  | (t, none) => .ok t
  | (_, some fault) => .error fault

/-- Overrides made on a table as a whole: under its own name there can be
none, and then nothing is overridden. -/
def amend (s : Settings) (options : List (String × Value)) : Settings × Option Fault :=
  if options.any (·.1 == Value.itself) then (s, some .unknownField) else s.update options

/-- The names under which a search is handed something other than a
setting, directly or by the name of its method. -/
def reserved (byName : Bool) : List String :=
  [Value.itself, "model", "x", "config"] ++ if byName then ["method"] else []

/-- The table overridden for a search, which keeps some names to itself. A
table in place of this one is none if it is absent. -/
def overridden (s : Settings) (reserved : List String) (options : List (String × Value)) :
    Except Fault Settings :=
  let options := options.filter fun (key, value) => key != "config" || value.isPresent
  if options.any (reserved.contains ·.1) then .error .unknownField else s.updated options

/-- A new table with some fields stated. -/
def construct (kind : SettingsKind) (fields : List (String × Value)) : Except Fault Settings :=
  match (Settings.default kind).update fields with
  | (t, none) => .ok t
  | (_, some _) => .error .unknownField

end Settings

end DirectSearch
