import Sysop.FileTree
import Sysop.Main
import Sysop.Policy.Table
import Sysop.Proofs.Connection.Admission
import Sysop.Proofs.Connection.Ending
import Sysop.Proofs.Board.Messages
import Sysop.Proofs.Board.Username
import Sysop.Proofs.Server.Loop
import Sysop.Proofs.Settings.PasswordUser
import Sysop.Proofs.Signal.Timeline
import Sysop.Proofs.Signal.Channel
import Sysop.Proofs.LineBuffer.Accounting
import Sysop.Proofs.LineBuffer.OpenReturn
import Sysop.Proofs.LineBuffer.Overlong
import Sysop.Proofs.CommandLine.Grammar
import Sysop.Proofs.Connection.Overflow
import Sysop.Proofs.Key.Identity
import Sysop.Proofs.Policy.Methods
import Sysop.Proofs.LineBuffer.TextLength
