/-! # Help and version

    What the command line says about itself. -/

namespace BlockStage

namespace Help

/-- The version. -/
def version : String := "0.1.0"

/-- The lines of the help. -/
def lines : List String :=
  ["",
    "Robolab CLI v" ++ version,
    "",
    "Usage:",
    "  robolab [options] <command> <program.json>",
    "",
    "Commands:",
    "  run FILE          Run the program on the stage and print the result",
    "  compile FILE      Print the compiled program and any warnings",
    "",
    "Options:",
    "  --preset NAME     Stage layout: robot-manual (default) or canvas",
    "  --instant         Skip animation delays",
    "  --trace           Print every agent snapshot",
    "  --verbose         Log engine activity to stderr",
    "  -h, --help        Show this help",
    "  -v, --version     Show version",
    "",
    "Program file:",
    "  A list of blocks is run by every agent in the preset.",
    "  \x7b\"agents\": \x7b\"merah\": [...], \"pink\": [...]\x7d\x7d gives "
      ++ "each agent its own blocks.",
    "  \x7b\"blocks\": [...]\x7d is the same as a bare list.",
    "  A top-level \"goal\", e.g. \x7b\"col\": 7, \"row\": 6\x7d, replaces the "
      ++ "preset's finish.",
    "",
    "Environment:",
    "  ROBOLAB_*         Engine timings and bounds (see robolab/config.py)",
    "",
    "Examples:",
    "  robolab run square.json --instant",
    "  robolab compile square.json",
    ""]

/-- The help. -/
def text : String :=
  String.join (lines.map (· ++ "\n"))

end Help

end BlockStage
