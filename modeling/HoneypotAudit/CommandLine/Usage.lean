import HoneypotAudit.CommandLine.Fault

/-!
# Usage and help

The texts that say how the program is called.  A refusal shows the usage of the part that it belongs
to, and help shows what the part knows.
-/

namespace HoneypotAudit.CommandLine

/-- The usage of a part. -/
def Part.usageLines : Part → List String
  | .main => [
    "usage: honeyprobe [-h] [--version] [--quiet] \x7binject,synth,analyze,config\x7d ..."]
  | .inject => ["usage: honeyprobe inject [-h] [--output OUTPUT] path"]
  | .synth => ["usage: honeyprobe synth [-h] [--args ARGS] [--output OUTPUT] path"]
  | .analyze => [
    "usage: honeyprobe analyze [-h] [--fork-url FORK_URL] [--block BLOCK]",
    "                          [--args ARGS] [--tx-hash TX_HASH]",
    "                          [--format \x7btable,json\x7d] [--output OUTPUT]",
    "                          path"]
  | .config => ["usage: honeyprobe config [-h]"]

/-- The lines of help about a source and the option that asks for help. -/
def sourceHelpLines : List String := [
  "positional arguments:",
  "  path                  Path to the .sol file",
  "",
  "options:",
  "  -h, --help            show this help message and exit"]

/-- The lines of help about a target. -/
def outputHelpLines : List String := [
  "  --output OUTPUT, -o OUTPUT",
  "                        Write output to file instead of stdout"]

/-- What help says about a part behind its usage. -/
def Part.helpLines : Part → List String
  | .main => [
    "honeyprobe: fork-based honeypot detection for token contracts",
    "",
    "positional arguments:",
    "  \x7binject,synth,analyze,config\x7d",
    "    inject              Inject constructor boilerplate into a source file",
    "    synth               Print the complete invariant test file",
    "    analyze             Run the invariant suites against a fork",
    "    config              Show current configuration",
    "",
    "options:",
    "  -h, --help            show this help message and exit",
    "  --version             Print version and exit",
    "  --quiet, -q           Minimal output"]
  | .inject => sourceHelpLines ++ outputHelpLines
  | .synth => sourceHelpLines ++
    ["  --args ARGS           Hex-encoded constructor arguments"] ++ outputHelpLines
  | .analyze => sourceHelpLines ++ [
    "  --fork-url FORK_URL   JSON-RPC URL to fork from (default: settings)",
    "  --block BLOCK         Block height to fork at",
    "  --args ARGS           Hex-encoded constructor arguments",
    "  --tx-hash TX_HASH     Deployment transaction, for logs",
    "  --format \x7btable,json\x7d, -f \x7btable,json\x7d",
    "                        Output format (default: table)"] ++ outputHelpLines
  | .config => [
    "options:",
    "  -h, --help  show this help message and exit"]

/-- Lines as a text, each with its end. -/
def linesText (lines : List String) : String :=
  String.join (lines.map (· ++ "\n"))

/-- The help about a part. -/
def Part.help (p : Part) : String :=
  linesText (p.usageLines ++ [""] ++ p.helpLines)

/-- What is shown about a refusal. -/
def refusalText (p : Part) (cause : Fault) : String :=
  linesText (p.usageLines ++ [p.title ++ ": error: " ++ cause.message])

end HoneypotAudit.CommandLine
