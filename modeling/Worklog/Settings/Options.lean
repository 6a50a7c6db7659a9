import Worklog.Json
import Worklog.Text.Case

namespace Worklog.Settings

/-- How settings are looked up. -/
structure Options where
  /-- What stands before the name of a setting in the name of its variable. -/
  start : String := ""
  /-- Capitals are told from small letters. -/
  exactCase : Bool := false
  /-- An empty value is as good as none. -/
  skipsEmpty : Bool := false
  /-- What stands between the name of a variable and the name of a part of its value. -/
  delimiter : String := ""
  /-- The text that stands for null. -/
  nullText : Option String := none
  /-- The file of variables is read. -/
  readsFile : Bool := true
  deriving DecidableEq, Repr

namespace Options

/-- The names of all options. Most of them change nothing here. -/
def names : List String :=
  ["_case_sensitive", "_nested_model_default_partial_update", "_env_prefix", "_env_prefix_target",
    "_env_file", "_env_file_encoding", "_env_ignore_empty", "_env_nested_delimiter",
    "_env_nested_max_split", "_env_parse_none_str", "_env_parse_enums", "_cli_prog_name",
    "_cli_parse_args", "_cli_settings_source", "_cli_parse_none_str", "_cli_hide_none_type",
    "_cli_avoid_json", "_cli_enforce_required", "_cli_use_class_docs_for_groups",
    "_cli_exit_on_error", "_cli_prefix", "_cli_flag_prefix_char", "_cli_implicit_flags",
    "_cli_ignore_unknown_args", "_cli_kebab_case", "_cli_shortcuts", "_secrets_dir",
    "_build_sources"]

/-- The name of the file of variables. -/
def fileName : String := ".env"

/-- A value is the name of the file. -/
def isFileName : Json → Bool
  | .str s => s = fileName
  | _ => false

/-- The file is named, alone or in a list. -/
def namesFile : Json → Bool
  | .arr files => files.any isFileName
  | v => isFileName v

/-- Takes one option over; null leaves what is usual, except that no file is a file to leave out. -/
def set (o : Options) (name : String) (v : Json) : Options :=
  match name, v with
  | "_env_file", v => { o with readsFile := namesFile v }
  | _, .null => o
  | "_env_prefix", .str start => { o with start }
  | "_case_sensitive", v => { o with exactCase := !v.isEmpty }
  | "_env_ignore_empty", v => { o with skipsEmpty := !v.isEmpty }
  | "_env_nested_delimiter", .str delimiter => { o with delimiter }
  | "_env_parse_none_str", .str text => { o with nullText := some text }
  | _, _ => o

/-- The options among values by name. -/
def ofGiven (given : List (String × Json)) : Options :=
  given.foldl (fun o (name, v) => o.set name v) {}

/-- A name as it is compared with others. -/
def compared (o : Options) (name : String) : String := if o.exactCase then name else Case.lower name

/-- The name of the variable of a setting. -/
def variableName (o : Options) (setting : String) : String := o.compared (o.start ++ setting)

/-- A variable gives a part of a setting. -/
def givesPart (o : Options) (setting entry : String) : Bool :=
  o.delimiter ≠ "" && (o.compared entry).startsWith (o.variableName setting ++ o.delimiter)

/-- A variable counts unless its value is as good as none. -/
def counts (o : Options) (value : Option String) : Bool := !(o.skipsEmpty && value == some "")

end Options
end Worklog.Settings
