import ShapeContract.CommandLine.Arguments

/-!
# Help and version

The fixed pages that the command line prints about itself.
-/

namespace ShapeContract

namespace CommandLine

/-- Lines of text, each ended by a line break. -/
def page (lines : List String) : String := String.join (lines.map fun line => line ++ "\n")

/-- The lines of a page of help. -/
def Topic.lines : Topic → List String
  | overview =>
    ["Command-line front end for shapeguard: check a JSON/YAML document against a schema literal, or run a guarded call over argument files.",
     "",
     "Usage: shapeguard [OPTIONS] <COMMAND>",
     "",
     "Commands:",
     "  check  Check a value file against a schema literal file",
     "  guard  Validate an argument list against a schema list, then echo it",
     "  help   Print this message or the help of the given subcommand(s)",
     "",
     "Options:",
     "  -v, --verbose...  Enable verbose output. Repeat for more verbosity (-v, -vv, -vvv)",
     "  -h, --help        Print help",
     "  -V, --version     Print version"]
  | check =>
    ["Check a value file against a schema literal file",
     "",
     "Usage: shapeguard check [OPTIONS] --schema <SCHEMA> --value <VALUE>",
     "",
     "Options:",
     "      --schema <SCHEMA>  Schema literal file (JSON or YAML)",
     "  -v, --verbose...       Enable verbose output. Repeat for more verbosity (-v, -vv, -vvv)",
     "      --value <VALUE>    Value file to check (JSON or YAML)",
     "  -h, --help             Print help"]
  | guard =>
    ["Validate an argument list against a schema list, then echo it",
     "",
     "Usage: shapeguard guard [OPTIONS] --schemas <SCHEMAS> --args <ARGS>",
     "",
     "Options:",
     "      --schemas <SCHEMAS>      File holding an array of schema literals, one per argument",
     "  -v, --verbose...             Enable verbose output. Repeat for more verbosity (-v, -vv, -vvv)",
     "      --args <ARGS>            File holding an array of argument values",
     "      --raise                  Return failures as errors instead of reporting them on stderr",
     "      --fail-with <FAIL_WITH>  Make the operation fail with this message after validation passes",
     "  -h, --help                   Print help"]
  | help =>
    ["Print this message or the help of the given subcommand(s)",
     "",
     "Usage: shapeguard help [COMMAND]...",
     "",
     "Arguments:",
     "  [COMMAND]...  Print help for the subcommand(s)"]

/-- A page of help. -/
def Topic.text (topic : Topic) : String := page topic.lines

/-- The line that tells the version. -/
def versionText : String := page ["shapeguard 0.1.0"]

/-- What is said about an invalid command line. -/
def usageText : String :=
  page ["error: invalid command line", "", "For more information, try '--help'."]

end CommandLine

end ShapeContract
