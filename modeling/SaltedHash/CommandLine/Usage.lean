import SaltedHash.CommandLine.Command

/-!
# Usage and help

The texts that explain the command line.
-/

namespace SaltedHash.CommandLine

def version : String := "0.1.0"

def usage : Text :=
  Text.line "usage: sshacrypt [-h] [--salt-length SALT_LENGTH]" ++
    Text.line "                 \x7bmkpass,crypt,check,digest,selftest\x7d [args ...]"

def help (saltLength : Int) : Text :=
  usage ++
    (([["", "Salted SHA-1 password hashing", "", "positional arguments:",
        "  \x7bmkpass,crypt,check,digest,selftest\x7d",
        "                        Command to execute",
        "  args                  \x7bSSHA\x7d string for check, files for digest", "",
        "options:", "  -h, --help            show this help message and exit",
        "  --salt-length SALT_LENGTH"],
      ["                        Salt length in bytes for crypt (default: " ++
        toString saltLength ++ ")"],
      ["", "Examples:", "  # Create a raw password record (salt and digest in hex)",
        "  python -m sshacrypt mkpass", "",
        "  # Create an \x7bSSHA\x7d string with a 12-byte salt",
        "  python -m sshacrypt crypt --salt-length 12", "",
        "  # Check a password against a stored string",
        "  python -m sshacrypt check '\x7bSSHA\x7d2gDsLm/57U00KyShbiYsgvPIsQtzYWx0'", "",
        "  # Hash files", "  python -m sshacrypt digest README.md setup.cfg", "",
        "  # Run known-answer tests", "  python -m sshacrypt selftest", "        "]].flatten.map
      fun (s : String) => Text.line s).flatten)

def complaintText (what : Complaint) : Text :=
  usage ++ Text.line ("sshacrypt: error: " ++ what.message)

end SaltedHash.CommandLine
