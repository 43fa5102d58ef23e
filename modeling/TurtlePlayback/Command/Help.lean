namespace TurtlePlayback.Command

inductive Topic
  | program
  | check
  | run
  | dump
  | help
  deriving DecidableEq

def Topic.ofName? : String → Option Topic
  | "check" => some .check
  | "run" => some .run
  | "dump" => some .dump
  | "help" => some .help
  | _ => none

structure Row where
  term : String
  about : String := ""

structure Page where
  about : Option String := none
  usage : String
  sections : List (String × List Row)

def Row.align (rows : List Row) : List String :=
  let width := rows.foldl (fun n r => max n r.term.length) 0
  rows.map fun r => "  " ++ r.term.pushn ' ' (width + 2 - r.term.length) ++ r.about

def Page.lines (p : Page) : List String :=
  p.about.elim [] (fun about => [about, ""]) ++ ["Usage: " ++ p.usage] ++
    p.sections.flatMap fun (title, rows) => ["", title ++ ":"] ++ Row.align rows

namespace Topic

def about : Topic → String
  | program => ""
  | check => "Compile a script and report errors"
  | run => "Play a script headlessly and print frame statistics as JSON"
  | dump => "Print the geometry of the first steps as JSON lines"
  | help => "Print this message or the help of the given subcommand(s)"

def verboseRow : Row :=
  ⟨"-v, --verbose", "Log debug output to stderr"⟩

def helpRow : Row :=
  ⟨"-h, --help", "Print help"⟩

def scriptPage (t : Topic) (name : String) (options : List Row) : Page where
  about := t.about
  usage := s!"toodle {name} [OPTIONS] <SCRIPT>"
  sections := [("Arguments", [⟨"<SCRIPT>", "Script file"⟩]), ("Options", options)]

def page : Topic → Page
  | program => {
      usage := "toodle [OPTIONS] <COMMAND>"
      sections := [
        ("Commands", [⟨"check", check.about⟩, ⟨"run", run.about⟩, ⟨"dump", dump.about⟩,
          ⟨"help", help.about⟩]),
        ("Options", [verboseRow, helpRow, ⟨"-V, --version", "Print version"⟩])] }
  | check => scriptPage check "check" [verboseRow, helpRow]
  | run =>
    scriptPage run "run" [
      ⟨"    --out <OUT>", "Write the final canvas to this PNG"⟩,
      verboseRow,
      ⟨"    --config <CONFIG>", "Player config JSON. Flags below override its fields"⟩,
      ⟨"    --seconds <SECONDS>", "Display time to simulate, in seconds [default: 2]"⟩,
      ⟨"    --fps <FPS>", "Simulated display refresh rate [default: 60]"⟩,
      { term := "    --speed <SPEED>" },
      ⟨"    --loop-mode <LOOP_MODE>", "[possible values: none, wrap, reverse]"⟩,
      { term := "    --width <WIDTH>" },
      { term := "    --height <HEIGHT>" },
      { term := "    --pixel-ratio <PIXEL_RATIO>" },
      helpRow]
  | dump =>
    scriptPage dump "dump" [
      ⟨"    --steps <STEPS>", "Number of steps to run [default: 1]"⟩, verboseRow, helpRow]
  | help => {
      about := help.about
      usage := "toodle help [COMMAND]..."
      sections := [("Arguments", [⟨"[COMMAND]...", "Print help for the subcommand(s)"⟩])] }

end Topic

end TurtlePlayback.Command
