import PatternGraph.Text.Wrap

/-!
What the options of a command mean, briefly or at length, and the texts that a request for help
prints.
-/
namespace PatternGraph.CommandLine

structure FlagUsage where
  format : String
  brief : String
  /-- Paragraphs. -/
  long : List String

namespace FlagUsage

def briefly (usages : List FlagUsage) : String :=
  let width := usages.foldl (fun w u => max w u.format.length) 0 + 2
  String.join (usages.map fun u =>
    "    " ++ u.format ++ "".pushn ' ' (width - u.format.length) ++ u.brief ++ "\n")

def paragraph (text : String) : String :=
  String.join ((Text.wrap 79 "        " text).map (· ++ "\n"))

def entry (u : FlagUsage) : String :=
  "    " ++ u.format ++ "\n" ++ "\n".intercalate (u.long.map paragraph)

def atLength (usages : List FlagUsage) : String := "\n".intercalate (usages.map entry)

end FlagUsage

def flagUsages : List FlagUsage :=
  [{ format := "--nest-limit <limit>"
     brief := "Set the group nesting limit."
     long :=
      ["Set the deepest level of group nesting that the compiler accepts. Patterns " ++
        "that nest deeper fail to compile."] },
    { format := "--no-captures"
      brief := "Compile groups without tags."
      long :=
        ["When given, every group compiles as if it were non-capturing. Named groups " ++
          "still parse, but backreferences to any group then fail to compile since there " ++
          "is no tag to refer to."] },
    { format := "--state-limit <limit>"
      brief := "Set the limit on the number of states."
      long :=
        ["Set the largest number of states a compiled graph may have. Patterns that " ++
          "need more fail to compile. The special value 'none' removes the limit, which " ++
          "is the default."] },
    { format := "--verbose"
      brief := "Add more output."
      long :=
        ["This is a generic flag that expands output beyond the \"normal\" amount. Which " ++
          "output is added depends on the command. For example, 'regex-graph-cli verify " ++
          "--verbose' also prints the tags that did not participate in a match."] },
    { format := "-p, --pattern <pattern>"
      brief := "Give the pattern by flag."
      long :=
        ["Give the pattern by flag instead of as the first positional argument. This is " ++
          "useful when the pattern begins with a '-'. When used, every positional " ++
          "argument is treated as an input."] },
    { format := "-q, --quiet"
      brief := "Suppress some output."
      long :=
        ["This is a generic flag that suppresses some (but not all) output. Which output " ++
          "is suppressed depends on the command. For example, 'regex-graph-cli debug " ++
          "graph -q' prints only the properties of the graph and not the dump of its " ++
          "states."] }]

def paragraphs (lines : List String) : String := "\n".intercalate lines

def programUsage : String := paragraphs
  ["A tool for interacting with the regex-graph crate on the command line.",
    "",
    "USAGE:",
    "    regex-graph-cli <command> ...",
    "",
    "COMMANDS:",
    "    debug    Print the debug representation of a compiled pattern.",
    "    find     Print every match of a pattern found in each input.",
    "    verify   Report whether a pattern matches each input in its entirety."]

def debugUsage : String := paragraphs
  ["Prints the debug representation of things from regex-graph.",
    "",
    "USAGE:",
    "    regex-graph-cli debug <command> ...",
    "",
    "COMMANDS:",
    "    graph    Print the debug representation of a compiled graph."]

def commandUsage (description : List String) (synopsis : String) (long : Bool) : String :=
  let options :=
    if long then FlagUsage.atLength flagUsages else FlagUsage.briefly flagUsages
  paragraphs
    (description ++
      ["",
        "USAGE:",
        "    regex-graph-cli " ++ synopsis,
        "",
        "TIP:",
        "    use -h for short docs and --help for long docs",
        "",
        "OPTIONS:",
        options.trimAsciiEnd.copy])

def graphUsage : Bool → String := commandUsage
  ["Prints the debug representation of a compiled graph.",
    "",
    "Every state is listed with its identifier, and the start state is marked with",
    "a '>'. Character classes and tag names follow the states."]
  "debug graph <pattern>"

def findUsage : Bool → String := commandUsage
  ["Prints every non-overlapping match of a pattern in each input.",
    "",
    "Matches are found from left to right. Each one is printed as a span of byte",
    "offsets followed by the text it covers."]
  "find <pattern> [<input> ...]"

def verifyUsage : Bool → String := commandUsage
  ["Reports whether a pattern matches each input in its entirety.",
    "",
    "For each input that matches, the span captured by every tag is printed as",
    "byte offsets. Tags that did not participate in the match are only printed",
    "with --verbose."]
  "verify <pattern> [<input> ...]"

end PatternGraph.CommandLine
