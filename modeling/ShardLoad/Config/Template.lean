/-!
# The starter configuration

A file to begin with: the built-in transaction workload, with a comment on each
field.

* `Config.template`: the text.
-/

namespace ShardLoad.Config

/-- The lines of the starter configuration. -/
def templateLines : List String :=
  [ "# mverse-loadgen configuration",
    "# Docs: run `mverse-loadgen run --help` for CLI overrides.",
    "",
    "[settings]",
    "# Concurrent virtual users (must be >= 1)",
    "virtual_users = 8",
    "# Run duration in seconds; no iteration starts after it elapses",
    "duration_secs = 60",
    "# Delay between iterations of one virtual user, in milliseconds",
    "pacing_ms = 500",
    "# Per-call timeout in milliseconds",
    "timeout_ms = 5000",
    "",
    "[target]",
    "host = \"localhost\"",
    "# Shards listen on base_port .. base_port + pool_size - 1",
    "base_port = 8000",
    "pool_size = 10",
    "# false switches to TLS",
    "plaintext = true",
    "# \"random\" or \"round-robin\"",
    "selection = \"random\"",
    "# \"per-call\" opens a connection per call, \"per-vu\" reuses one per shard",
    "connection = \"per-call\"",
    "",
    "[payload]",
    "# Sizes in bytes of the random key and value",
    "key_length = 4",
    "value_length = 5",
    "# Base64 auxiliary token sent with every transaction",
    "auxiliary = \"6OWjvfz3RRkoQ7O7RdoPm1O5\"",
    "# \"update\" or \"delete\"",
    "transaction_type = \"update\"",
    "wait = true",
    "",
    "[[scenario]]",
    "type = \"transaction\"",
    "weight = 100",
    "",
    "# Uncomment to mix in root reads:",
    "# [[scenario]]",
    "# type = \"root-read\"",
    "# weight = 10" ]

/-- The text of the starter configuration. -/
def template : String := String.join (templateLines.map fun line => line ++ "\n")

end ShardLoad.Config
