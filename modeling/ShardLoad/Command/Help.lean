import ShardLoad.Command.Arguments

/-!
# Help

For the program and for each of its commands there is a text that says what it
does and which flags and options it takes.

* `Topic.lines`: the text on a topic.
-/

namespace ShardLoad.Topic

/-- What a topic is about. -/
def about : Topic → String
  | program => "Drive a sharded MerkleVerse gRPC service with paced virtual users"
  | run => "Run a load test against the shard pool"
  | init => "Generate a starter loadtest config file"
  | help => "Print this message or the help of the given subcommand(s)"

/-- How a topic is called. -/
def usage : Topic → String
  | program => "mverse-loadgen [OPTIONS] <COMMAND>"
  | run => "mverse-loadgen run [OPTIONS]"
  | init => "mverse-loadgen init [OPTIONS]"
  | help => "mverse-loadgen help [COMMAND]..."

/-- The flags and options of a topic, each with what it does. -/
def items : Topic → List (String × String)
  | program =>
    [("-v, --verbose", "Enable debug logging"), ("-h, --help", "Print help"),
      ("-V, --version", "Print version")]
  | run =>
    [("    --config <CONFIG>",
        "Path to config file (default: auto-discover .mverse/loadtest.toml)"),
      ("-v, --verbose", "Enable debug logging"),
      ("    --vus <VUS>", "Number of virtual users"),
      ("    --duration <DURATION>", "Test duration in seconds"),
      ("    --pacing <PACING>",
        "Delay between iterations of one virtual user, in milliseconds"),
      ("    --pool-size <POOL_SIZE>", "Number of shards in the pool"),
      ("    --base-port <BASE_PORT>", "Port of shard 0"),
      ("    --host <HOST>", "Host serving every shard"),
      ("    --secure", "Use TLS instead of plaintext HTTP/2"),
      ("    --iterations <ITERATIONS>",
        "Stop after this many iterations across all virtual users"),
      ("    --seed <SEED>",
        "Seed every virtual user's generator for a reproducible payload stream"),
      ("    --log-payloads", "Log every synthesized request as JSON"),
      ("    --fail-on-error", "Exit non-zero when any iteration failed"),
      ("    --no-report", "Disable JSON report output"),
      ("    --no-color", "Disable colored output"), ("-h, --help", "Print help")]
  | init =>
    [("    --force", "Overwrite existing config file"),
      ("-v, --verbose", "Enable debug logging"), ("-h, --help", "Print help")]
  | help => []

/-- The commands of the program. -/
def commands : List (String × Topic) := [("run ", run), ("init", init), ("help", help)]

/-- The lines on flags and options. -/
def itemLines (t : Topic) : List String :=
  if t.items.isEmpty then []
  else
    let width := (t.items.map fun (item, _) => item.length).foldl max 0
    "" :: "Options:" :: t.items.map fun (item, does) =>
      "  " ++ item ++ String.ofList (List.replicate (width + 2 - item.length) ' ') ++ does

/-- The lines on commands. -/
def commandLines : Topic → List String
  | program => "" :: "Commands:" :: commands.map fun (name, t) => "  " ++ name ++ "  " ++ t.about
  | _ => []

/-- The text on a topic. -/
def lines (t : Topic) : List String :=
  t.about :: "" :: ("Usage: " ++ t.usage) :: t.commandLines ++ t.itemLines

end ShardLoad.Topic
