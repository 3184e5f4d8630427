import DecisionTree.Text.Split

namespace DecisionTree.Command.Help

def programName : String := "pmml-tree"

def version : String := programName ++ " 0.1.0\n"

def text (lines : List String) : String :=
  Text.joinWith "\n" lines ++ "\n"

/-- The switches that every command has, where what they mean stands beside them. -/
def commonLines : List String :=
  ["  -v, --verbose          Enable verbose logging",
    "  -c, --config <CONFIG>  Path to config file (defaults to ~/.config/pmml-tree/config.yaml)",
    "  -h, --help             Print help"]

def program : String :=
  text <|
    ["Score records against PMML decision-tree models", "",
      "Usage: pmml-tree [OPTIONS] <COMMAND>", "",
      "Commands:",
      "  score  Score one record against a tree model",
      "  list   Summarize every tree model in the given documents",
      "  init   Write a default config file",
      "  help   Print this message or the help of the given subcommand(s)", "",
      "Options:"] ++
    commonLines ++
    ["  -V, --version          Print version"]

def score : String :=
  text
    ["Score one record against a tree model", "",
      "Usage: pmml-tree score [OPTIONS] [DOCUMENT]", "",
      "Arguments:",
      "  [DOCUMENT]  PMML document (defaults to the config's `models` patterns)", "",
      "Options:",
      "  -m, --model <MODEL>",
      "          Model name; may be omitted when only one model is loaded",
      "  -v, --verbose",
      "          Enable verbose logging",
      "  -c, --config <CONFIG>",
      "          Path to config file (defaults to ~/.config/pmml-tree/config.yaml)",
      "  -f, --field <KEY=VALUE>",
      "          Field assignment such as `outlook=\"sunny\"` or `temperature=75`",
      "      --record <FILE>",
      "          JSON file holding a flat object of field values",
      "      --json",
      "          Print the result as JSON",
      "      --missing-value-strategy <STRATEGY>",
      "          Override the document's missingValueStrategy",
      "      --no-true-child-strategy <STRATEGY>",
      "          Override the document's noTrueChildStrategy",
      "  -h, --help",
      "          Print help"]

def list : String :=
  text <|
    ["Summarize every tree model in the given documents", "",
      "Usage: pmml-tree list [OPTIONS] [DOCUMENTS]...", "",
      "Arguments:",
      "  [DOCUMENTS]...  PMML documents (defaults to the config's `models` patterns)", "",
      "Options:"] ++
    commonLines

def init : String :=
  text <|
    ["Write a default config file", "",
      "Usage: pmml-tree init [OPTIONS]", "",
      "Options:",
      "      --force            Overwrite an existing config"] ++
    commonLines

def help : String :=
  text
    ["Print this message or the help of the given subcommand(s)", "",
      "Usage: pmml-tree help [COMMAND]...", "",
      "Arguments:",
      "  [COMMAND]...  Print help for the subcommand(s)"]

/-- What is told about a command, or about the program if none is named. -/
def about? : List String → Option String
  | [] => some program
  | ["score"] => some score
  | ["list"] => some list
  | ["init"] => some init
  | ["help"] => some help
  | _ => none

end DecisionTree.Command.Help
