import TabCompletion.Command.Basic
import TabCompletion.Factory

namespace TabCompletion.Catalog

/-- An option that takes no value. -/
def switch (name description : Text) (short : Option Char := none) : Flag :=
  ⟨name, short, description, false, none⟩

/-- An option that takes a value, one of some candidates when there are any. -/
def setting (name description : Text) (values : Option (List Text) := none)
    (short : Option Char := none) : Flag :=
  ⟨name, short, description, true, values⟩

def leaf (name description : Text) (flags : List Flag) (positional : Option Positional := none) :
    Command :=
  ⟨name, description, flags, [], positional.isSome, positional⟩

def group (name description : Text) (subcommands : List Command) : Command :=
  ⟨name, description, [], subcommands, false, none⟩

def json : Flag := switch "json" "Output as JSON"

def noInteractive : Flag := switch "no-interactive" "Disable interactive prompts"

def strict : Flag := switch "strict" "Enable strict validation mode"

def shell : Flag :=
  setting "shell" "Shell to use (auto-detected if omitted)" Factory.supportedShells

def itemType : Flag :=
  setting "type" "Specify item type when ambiguous" (some ["change", "spec"])

def long : Flag := switch "long" "Show id and title with counts"

def skipConfirmation : Flag := switch "yes" "Skip confirmation prompts" 'y'

def changeCommands : List Command :=
  [leaf "show" "Show a change proposal"
      [json, switch "deltas-only" "Show only deltas (JSON only)", noInteractive]
      Positional.changeId,
    leaf "list" "List all active changes" [json, long],
    leaf "validate" "Validate a change proposal" [strict, json, noInteractive] Positional.changeId]

def specCommands : List Command :=
  [leaf "show" "Show a specification"
      [json, switch "requirements" "Show only requirements (JSON only)",
        switch "no-scenarios" "Exclude scenario content (JSON only)",
        setting "requirement" "Show a specific requirement by 1-based index (JSON only)" none 'r',
        noInteractive]
      Positional.specId,
    leaf "list" "List all specifications" [json, long],
    leaf "validate" "Validate a specification" [strict, json, noInteractive] Positional.specId]

def completionCommands : List Command :=
  [leaf "generate" "Generate completion script for a shell (outputs to stdout)" [shell]
      Positional.shell,
    leaf "install" "Install completion script for a shell"
      [shell, switch "verbose" "Show detailed installation output"] Positional.shell,
    leaf "uninstall" "Uninstall completion script for a shell" [shell, skipConfirmation]
      Positional.shell]

/-- The command tree that the installed script completes, in the order of its menus. -/
def commands : List Command :=
  [leaf "init" "Initialize spectest in your project"
      [setting "tools"
        "Configure AI tools non-interactively (e.g., \"all\", \"none\", or comma-separated tool IDs)"]
      Positional.path,
    leaf "update" "Update spectest instruction files" [] Positional.path,
    leaf "list" "List items (changes by default). Use --specs to list specs."
      [switch "specs" "List specs instead of changes",
        switch "changes" "List changes explicitly (default)"],
    leaf "view" "Display an interactive dashboard of specs and changes" [],
    group "change" "Manage spectest change proposals" changeCommands,
    group "spec" "Manage and view spectest specifications" specCommands,
    leaf "show" "Show a change or spec"
      [json, itemType, noInteractive,
        switch "deltas-only" "Show only deltas (JSON only, change)",
        switch "requirements" "Show only requirements (JSON only, spec)",
        switch "no-scenarios" "Exclude scenario content (JSON only, spec)",
        setting "requirement" "Show a specific requirement by 1-based index (JSON only, spec)" none
          'r']
      Positional.changeOrSpecId,
    leaf "validate" "Validate changes and specs"
      [switch "all" "Validate all changes and specs", switch "changes" "Validate all changes",
        switch "specs" "Validate all specs", itemType, strict, json,
        setting "concurrency"
          "Max concurrent validations (defaults to env SPECTEST_CONCURRENCY or 6)",
        noInteractive]
      Positional.changeOrSpecId,
    leaf "archive" "Archive a completed change and update main specs"
      [skipConfirmation, switch "skip-specs" "Skip spec update operations",
        switch "no-validate" "Skip validation (not recommended)"]
      Positional.changeId,
    group "completion" "Manage shell completions for spectest CLI" completionCommands,
    leaf "config" "Show the effective spectest configuration" []]

end TabCompletion.Catalog
