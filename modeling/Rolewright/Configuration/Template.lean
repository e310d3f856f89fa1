/-
# A configuration file to start from

The text of a configuration file that sets every setting to its default.
-/

import Rolewright.Configuration.Read

namespace Rolewright.Configuration

/-- A configuration file in which everything is set to its default. -/
def template : String :=
  "# cookport configuration\n" ++
  "\n" ++
  "[generator]\n" ++
  "model = \"claude-3-7-sonnet-20250219\"\n" ++
  "endpoint = \"https://api.anthropic.com/v1/messages\"\n" ++
  "max_tokens = 4096\n" ++
  "temperature = 0.2\n" ++
  "api_key_env = \"ANTHROPIC_API_KEY\"\n" ++
  "examples_per_request = 3\n" ++
  "\n" ++
  "[validation]\n" ++
  "# empty string disables the external linter\n" ++
  "ansible_lint = \"ansible-lint\"\n" ++
  "require_external_lint = false\n" ++
  "syntax_check = false\n" ++
  "\n" ++
  "[conversion]\n" ++
  "max_repair_attempts = 3\n" ++
  "max_transport_retries = 4\n" ++
  "backoff_initial_ms = 500\n" ++
  "backoff_max_ms = 8000\n" ++
  "call_timeout_secs = 120\n" ++
  "workers = 4\n" ++
  "# mapping_file = \"mappings.yaml\"\n"

end Rolewright.Configuration
