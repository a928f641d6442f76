import VideoLink.Numeric.Reading
import VideoLink.Report.Json
import VideoLink.Report.Text
import VideoLink.Session.Build

/-! The command line: its options, and what a call prints. -/
namespace VideoLink

structure Options where
  settings : Settings
  /-- The least severe notices to be logged. -/
  logLevel : Severity
  printConfig : Bool
  json : Bool

inductive Command
  | version
  | run (options : Options)

namespace Options

def standard : Options where
  settings := { gammaScaleMillis := 60.227 }
  logLevel := .warn
  printConfig := false
  json := false

private def readBool? : String → Option Bool
  | "true" => some true
  | "false" => some false
  | _ => none

private def readProtocol? : String → Option Protocol
  | "tcp" => some .tcp
  | "udp" => some .udp
  | _ => none

/-- A severity by its name in any case, or by its number from one on. -/
private def readSeverity? (text : String) : Option Severity :=
  match Numeric.readNatural? UInt64.size text with
  | some n => if n = 0 then none else Severity.all[n - 1]?
  | none => Severity.all.find? fun s => s.name = text.toUpper

private def edit (o : Options) (f : Settings → Settings) : Options :=
  { o with settings := f o.settings }

def set? (o : Options) (name value : String) : Option Options :=
  let float (f : Float → Settings → Settings) := (Numeric.readFloat? value).map fun x => o.edit (f x)
  let nat (f : Nat → Settings → Settings) :=
    (Numeric.readNatural? UInt64.size value).map fun n => o.edit (f n)
  let bool (f : Bool → Settings → Settings) := (readBool? value).map fun b => o.edit (f b)
  match name with
  | "sim-time-sec" => float fun x s => { s with durationSeconds := x }
  | "enable-video-uplink" => bool fun b s => { s with uplink := b }
  | "enable-video-downlink" => bool fun b s => { s with downlink := b }
  | "enable-capture" => bool fun b s => { s with capture := b }
  | "p2p-link-delay-ms" => float fun x s => { s with linkDelayMillis := x }
  | "p2p-link-rate-bps" => nat fun n s => { s with linkRate := n }
  | "video-quality" =>
    (Numeric.readInteger? UInt8.size value).map fun n => o.edit fun s => { s with quality := n }
  | "video-frame-interval-s" => float fun x s => { s with frameIntervalSeconds := x }
  | "video-has-jitter" => bool fun b s => { s with hasJitter := b }
  | "video-gamma-shape" => float fun x s => { s with gammaShape := x }
  | "video-gamma-scale-ms" => float fun x s => { s with gammaScaleMillis := x }
  | "transport" => (readProtocol? value).map fun p => o.edit fun s => { s with protocol := p }
  | "seed" => nat fun n s => { s with seed := UInt64.ofNat n }
  | "log-level" => (readSeverity? value).map fun l => { o with logLevel := l }
  | _ => none

/-- Sets the option of a name that takes no value. -/
def setFlag? (o : Options) : String → Option Options
  | "print-config" => some { o with printConfig := true }
  | "json" => some { o with json := true }
  | _ => none

private def splitValue (argument : String) : String × Option String :=
  match argument.splitOn "=" with
  | name :: value :: rest => (name, some ("=".intercalate (value :: rest)))
  | _ => (argument, none)

end Options

namespace Command

/-- Reads arguments from first to last. Each option is given at most once, and `seen` has those given
so far. A value stands behind an equals sign, or in an argument of its own that does not start with a
dash. Two dashes end the options, and nothing may follow them. -/
def readFrom (o : Options) (seen : List String) : List String → Option Command
  | [] => some (.run o)
  | argument :: rest =>
    if argument = "--" then
      if rest.isEmpty then some (.run o) else none
    else if argument.startsWith "--" then
      let (name, value?) := Options.splitValue (argument.drop 2).copy
      if name = "version" then
        if value?.isNone then some .version else none
      else if seen.contains name then none
      else
        match value? with
        | some value => (o.set? name value).bind fun o => readFrom o (name :: seen) rest
        | none =>
          match o.setFlag? name with
          | some o => readFrom o (name :: seen) rest
          | none =>
            match rest with
            | value :: rest =>
              if value.startsWith "-" then none
              else (o.set? name value).bind fun o => readFrom o (name :: seen) rest
            | [] => none
    else none

def read? (arguments : List String) : Option Command := readFrom .standard [] arguments

end Command

structure Outcome where
  status : Nat
  output : String
  error? : Option String
deriving DecidableEq, Repr

namespace Outcome

def configStatus : Nat := 2

def failureStatus : Nat := 1

def panicStatus : Nat := 101

end Outcome

namespace Options

def render (o : Options) (r : Report) : String :=
  if o.json then r.json.pretty ++ "\n" else r.text

/-- Checks the settings, runs and reports. -/
def execute (o : Options) : Outcome :=
  match o.settings.check with
  | .error error => ⟨Outcome.configStatus, "", some s!"error: {error.message}"⟩
  | .ok config =>
    let shown := if o.printConfig then config.text ++ "\n" else ""
    match Session.build? config with
    | .error (.config error) =>
      ⟨Outcome.configStatus, shown, some s!"error: {(SessionError.config error).message}"⟩
    | .error (.histogram .capacityOverflow) =>
      ⟨Outcome.panicStatus, shown, some HistogramError.capacityOverflow.message⟩
    | .error error => ⟨Outcome.failureStatus, shown, some s!"error: {error.message}"⟩
    | .ok session => ⟨0, shown ++ o.render session.run.2.report, none⟩

end Options

namespace Command

def versionText : String := "vidsim 0.1.0"

def execute : Command → Outcome
  | version => ⟨0, versionText ++ "\n", none⟩
  | run options => options.execute

end Command

end VideoLink
