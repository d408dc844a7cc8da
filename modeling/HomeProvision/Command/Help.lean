/-!
# Help

The texts about the command's own use.
-/

namespace HomeProvision.Command

/-- The name of the command. -/
def commandName : String := "mkhome"

/-- How the command is called. -/
def usage : String :=
  "\n".intercalate
    ["usage: mkhome [-h] --user USER [--uid UID] [--gid GID] [--config CONFIG]",
      "              [--enable] [--skel SKEL] [--mode MODE] [--dirmode DIRMODE]",
      "              path",
      ""]

/-- What the command does and what its arguments mean; the path of the configuration file is the
default. -/
def help (configuration : String) : String :=
  usage ++ "\n" ++
    "\n".intercalate
      ["Create a home directory on demand",
        "",
        "positional arguments:",
        "  path               Home directory to create",
        "",
        "options:",
        "  -h, --help         show this help message and exit",
        "  --user USER        User the directory belongs to",
        "  --uid UID          Owner uid (default: looked up from --user)",
        "  --gid GID          Owner gid (default: looked up from --user)",
        "  --config CONFIG    Config file (default: " ++ configuration ++ ")",
        "  --enable           Enable CreateHome regardless of the config file",
        "  --skel SKEL        Skeleton directory to copy into the new home",
        "  --mode MODE        Octal mode of the home directory",
        "  --dirmode DIRMODE  Octal mode of created parent directories",
        ""]

/-- What is printed for a command line that is refused. -/
def complaint (message : String) : String :=
  usage ++ commandName ++ ": error: " ++ message ++ "\n"

end HomeProvision.Command
