import Spreadsheet.Grid
import Spreadsheet.Notice
import Spreadsheet.Saving.Manager
import Spreadsheet.Settings.Value

/-!
# Settings

The size of the grid, the server, the delays of saving, the file and the log. Each setting has a
default. It can be given as a variable of the environment and as a value, which comes before the
environment; the names may be in any case. All settings that are wrong are reported together.
-/

namespace Spreadsheet

open Text

/-- The names of the settings. -/
inductive Setting where
  | rows
  | columns
  | serverUrl
  | requestTimeout
  | saveDebounce
  | backoff
  | maxRetries
  | storagePath
  | logSeverity
  deriving DecidableEq, Repr

namespace Setting

/-- The name under which a value is given. -/
def name : Setting → String
  | .rows => "rows"
  | .columns => "columns"
  | .serverUrl => "api_base_url"
  | .requestTimeout => "request_timeout"
  | .saveDebounce => "save_debounce_ms"
  | .backoff => "backoff_initial_ms"
  | .maxRetries => "max_retries"
  | .storagePath => "storage_path"
  | .logSeverity => "log_level"

/-- The name of the variable of the environment, in small letters. -/
def variableName (s : Setting) : String := "gridcalc_" ++ s.name

end Setting

/-- What a session is set up with. -/
structure Settings where
  rows : Nat := 50
  columns : Nat := 3
  rows_pos : 0 < rows := by decide
  columns_pos : 0 < columns := by decide
  columns_le : columns ≤ 26 := by decide
  serverUrl : String := "http://localhost:8082"
  /-- In seconds. -/
  requestTimeout : Float := 10
  saving : SavingConfig := {}
  storagePath : String := "spreadsheetData.json"
  /-- Records below this severity are not logged. -/
  logSeverity : Severity := .info

/-- The message of a fault that is about the value itself and not about its type. -/
def SettingFault.message? : SettingFault → Option String
  | .tooFewRows given => some ("rows must be at least 1, got " ++ signedDecimal given)
  | .columnsOutOfRange given =>
    some ("columns must be between 1 and 26, got " ++ signedDecimal given)
  | .negative given => some ("must not be negative, got " ++ signedDecimal given)
  | .unknownSeverity given =>
    some ("Invalid log level: " ++ given ++ ". Must be one of: " ++
      ", ".intercalate (Severity.all.map Severity.name))
  | _ => none

namespace Settings

/-- The grid of empty cells. -/
def emptyGrid (s : Settings) : Grid :=
  Grid.empty s.rows s.columns s.rows_pos s.columns_pos s.columns_le

/-! ## Single settings -/

/-- A number of rows. -/
def readRows (value : Json) : Except SettingFault { n : Nat // 0 < n } :=
  (SettingValue.integer value).bind fun n =>
    if h : 1 ≤ n then .ok ⟨n.toNat, by omega⟩ else .error (.tooFewRows n)

/-- A number of columns. -/
def readColumns (value : Json) : Except SettingFault { n : Nat // 0 < n ∧ n ≤ 26 } :=
  (SettingValue.integer value).bind fun n =>
    if h : 1 ≤ n ∧ n ≤ 26 then .ok ⟨n.toNat, by omega⟩ else .error (.columnsOutOfRange n)

/-- A number of milliseconds or of attempts. -/
def readCount (value : Json) : Except SettingFault Nat :=
  (SettingValue.integer value).bind fun n =>
    if 0 ≤ n then .ok n.toNat else .error (.negative n)

/-- A severity by its name in any case. -/
def readSeverity (value : Json) : Except SettingFault Severity :=
  (SettingValue.text value).bind fun text =>
    match Severity.ofName? text with
    | some severity => .ok severity
    | none => .error (.unknownSeverity text)

/-! ## All settings -/

/-- A name in small letters. Beyond ASCII the Kelvin sign alone has a small letter in ASCII. -/
def lowerName (name : String) : String :=
  name.map fun c => if c == '\u212a' then 'k' else c.toLower

/-- The first of the pairs whose names are a given one in any case. -/
def firstNamed? {α : Type} (name : String) (pairs : List (String × α)) : Option α :=
  (pairs.find? fun p => lowerName p.1 == name).map Prod.snd

/-- What is given for a setting: a value, or else a variable of the environment. Of names that differ
in case the first value counts, and the last variable. -/
def given? (environment : List (String × String)) (values : List (String × Json))
    (s : Setting) : Option Json :=
  (firstNamed? s.name values).or ((firstNamed? s.variableName environment.reverse).map fun t => .string t)

/-- A setting with the fault in what is given for it. -/
def faultOf {α : Type} (s : Setting) : Except SettingFault α → List (Setting × SettingFault)
  | .ok _ => []
  | .error fault => [(s, fault)]

/-- Reads the settings, or reports every fault. -/
def read (environment : List (String × String)) (values : List (String × Json)) :
    Except (List (Setting × SettingFault)) Settings :=
  let pick {α : Type} (s : Setting) (standard : α) (reader : Json → Except SettingFault α) :
      Except SettingFault α :=
    match given? environment values s with
    | none => .ok standard
    | some value => reader value
  let standard : Settings := {}
  let rows := pick .rows ⟨standard.rows, standard.rows_pos⟩ readRows
  let columns := pick .columns ⟨standard.columns, standard.columns_pos, standard.columns_le⟩
    readColumns
  let serverUrl := pick .serverUrl standard.serverUrl SettingValue.text
  let requestTimeout := pick .requestTimeout standard.requestTimeout SettingValue.number
  let debounce := pick .saveDebounce standard.saving.debounce readCount
  let backoff := pick .backoff standard.saving.backoff fun value =>
    (readCount value).map Int.ofNat
  let maxRetries := pick .maxRetries standard.saving.maxRetries readCount
  let storagePath := pick .storagePath standard.storagePath SettingValue.text
  let logSeverity := pick .logSeverity standard.logSeverity readSeverity
  match rows, columns, serverUrl, requestTimeout, debounce, backoff, maxRetries, storagePath,
    logSeverity with
  | .ok rows, .ok columns, .ok serverUrl, .ok requestTimeout, .ok debounce, .ok backoff,
    .ok maxRetries, .ok storagePath, .ok logSeverity =>
    .ok
      { rows := rows.val
        columns := columns.val
        rows_pos := rows.property
        columns_pos := columns.property.1
        columns_le := columns.property.2
        serverUrl := serverUrl
        requestTimeout := requestTimeout
        saving := ⟨debounce, backoff, maxRetries⟩
        storagePath := storagePath
        logSeverity := logSeverity }
  | _, _, _, _, _, _, _, _, _ =>
    .error (faultOf .rows rows ++ faultOf .columns columns ++ faultOf .serverUrl serverUrl ++
      faultOf .requestTimeout requestTimeout ++ faultOf .saveDebounce debounce ++
      faultOf .backoff backoff ++ faultOf .maxRetries maxRetries ++
      faultOf .storagePath storagePath ++ faultOf .logSeverity logSeverity)

/-! ## Delays -/

/-- Milliseconds as the nearest double of seconds, unless that is out of range. -/
def seconds? (milliseconds : Int) : Option Float :=
  let bits := Number.nearestBits milliseconds.natAbs 1000
  if bits < Number.infinityBits then some (Number.ofSignBits (milliseconds < 0) bits) else none

end Settings

end Spreadsheet
