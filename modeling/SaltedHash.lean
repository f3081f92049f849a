import SaltedHash.Main
import SaltedHash.Scrub
import SaltedHash.Proofs.CommandLine.Crypt
import SaltedHash.Proofs.CommandLine.Digest
import SaltedHash.Proofs.CommandLine.Mkpass
import SaltedHash.Proofs.CommandLine.ReadSize
import SaltedHash.Proofs.CommandLine.Status
import SaltedHash.Proofs.Crypt.Capacity
import SaltedHash.Proofs.Crypt.SaltLimit
import SaltedHash.Proofs.HashStream
import SaltedHash.Proofs.Prompt.Dialogue
import SaltedHash.Proofs.Record.Construction
import SaltedHash.Proofs.Record.Password
import SaltedHash.Proofs.Record.Reading
import SaltedHash.Proofs.Salt.Calls
import SaltedHash.Proofs.Salt.Seeds
import SaltedHash.Proofs.Secrecy
import SaltedHash.Proofs.SelfTest
import SaltedHash.Proofs.Settings
import SaltedHash.Proofs.Sha1.Concatenation
import SaltedHash.Proofs.Sha1.Refusal
import SaltedHash.Proofs.Sha1.Rounds
import SaltedHash.Proofs.Sha1.Separated
import SaltedHash.Proofs.Sha1.Session
import SaltedHash.Proofs.Salt.Period
import SaltedHash.Proofs.Scrub
import SaltedHash.Proofs.SelfTest.Verdict
import SaltedHash.Proofs.Settings.Judgement
