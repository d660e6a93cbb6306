import DomainModel.CommandLine.Run
import DomainModel.Report

namespace DomainModel.CommandLine

abbrev Findings := List (String × Except FileError ByteArray)

namespace Findings

def isAbsence : FileError → Bool
  | .notFound | .notDirectory | .nameTooLong | .nulInPath => true
  | _ => false

def read (findings : Findings) (path : String) : Except FileError ByteArray :=
  (findings.lookup path).getD (.error .notFound)

def present (findings : Findings) (path : String) : Bool :=
  match findings.read path with
  | .ok _ => true
  | .error error => !isAbsence error

def storage : Storage Findings where
  present := present
  read := read
  write := fun findings _ _ => .ok findings

end Findings

/-- The system's number of an error. It may come negated, in 32 bits. -/
def errorNumber (code : UInt32) : UInt32 := if code < 0x80000000 then code else -code

def fileError (path : String) (error : IO.Error) : FileError :=
  let number :=
    match error with
    | .noFileOrDirectory _ code _ => errorNumber code
    | .inappropriateType _ code _ => errorNumber code
    | .invalidArgument _ code _ => errorNumber code
    | _ => 0
  if path.toList.contains '\x00' then .nulInPath
  else if number = 2 then .notFound
  else if number = 20 then .notDirectory
  else if number = 21 then .isDirectory
  else if number = 36 then .nameTooLong
  else .other error.toString

def readFile (path : String) : IO (Except FileError ByteArray) := do
  try return .ok (← IO.FS.readBinFile path)
  catch error => return .error (fileError path error)

def writeFile (path text : String) : IO (Except FileError Unit) := do
  try
    IO.FS.writeFile path text
    return .ok ()
  catch error => return .error (fileError path error)

def printReport (report : Report) : IO Unit := do
  IO.eprintln report.message
  if let some code := report.code then IO.eprintln ("  code: " ++ code)
  if let some help := report.help then IO.eprintln ("  help: " ++ help)

def fail (failure : Failure) : IO UInt32 := do
  printReport failure.report
  return 1

def usage : String :=
  "Usage: masala [OPTIONS] <INPUT>\n\n" ++
  "Arguments:\n" ++
  "  <INPUT>  Path to the input notification\n\n" ++
  "Options:\n" ++
  "  -o, --output <OUTPUT>        Write the view here instead of stdout\n" ++
  "      --view <VIEW>            View to print (tree, graph); defaults to the configured view\n" ++
  "  -c, --config <CONFIG>        Path to configuration file (TOML)\n" ++
  "      --log-level <LOG_LEVEL>  Log level (off, error, warn, info, debug, trace)\n" ++
  "  -h, --help                   Print help\n" ++
  "  -V, --version                Print version"

def Stop.message : Stop → String
  | .help => "help"
  | .version => "version"
  | .missingInput => "the input is missing"
  | .unknownArgument => "unknown argument"
  | .missingValue => "an option has no value"
  | .unexpectedValue => "a value is given to an option that takes none"
  | .unknownView => "unknown view, expected `tree` or `graph`"
  | .repeatedOption => "an option is given twice"

def stop : Stop → IO UInt32
  | .help => do
    IO.println usage
    return 0
  | .version => do
    IO.println "masala 0.1.0"
    return 0
  | reason => do
    IO.eprintln ("error: " ++ reason.message ++ "\n\n" ++ usage)
    return 2

def report (rendering : Rendering) : IO UInt32 := do
  for diagnostic in rendering.diagnostics do
    printReport diagnostic.report
  return if rendering.view.isGated then 1 else 0

def execute (arguments : Arguments) : IO UInt32 := do
  let user := userSettings (← IO.getEnv "XDG_CONFIG_HOME") (← IO.getEnv "HOME")
  let paths := arguments.config.toList ++ [projectSettings] ++ user.toList ++ [arguments.input]
  let findings ← paths.mapM fun path => do return (path, ← readFile path)
  let (result, _) := Findings.storage.run findings user arguments
  match result.outcome with
  | .error failure => fail failure
  | .ok rendering =>
    match arguments.output with
    | none =>
      IO.print result.printed
      report rendering
    | some path =>
      match ← writeFile path rendering.view.text with
      | .ok _ => report rendering
      | .error error => fail (.file error)

end DomainModel.CommandLine

def main (args : List String) : IO UInt32 :=
  match DomainModel.CommandLine.Arguments.ofWords args with
  | .error reason => DomainModel.CommandLine.stop reason
  | .ok arguments => DomainModel.CommandLine.execute arguments
