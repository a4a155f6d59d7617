import ProtocolIdent.Format.Template
import ProtocolIdent.Json.IdentMap
import ProtocolIdent.KnownAnswer
import ProtocolIdent.Main
import ProtocolIdent.Proofs.Diagnostics
import ProtocolIdent.Proofs.Json.Ident
import ProtocolIdent.Proofs.PacketGate
import ProtocolIdent.Proofs.Header.View
import ProtocolIdent.Proofs.Session.History
import ProtocolIdent.Proofs.Ident.Order
import ProtocolIdent.Proofs.Ident.Grammar
import ProtocolIdent.Proofs.KnownAnswer
import ProtocolIdent.Proofs.Report.Lines
import ProtocolIdent.Proofs.VersionText
import ProtocolIdent.Proofs.Report.Capacity
import ProtocolIdent.Proofs.Json.Members
import ProtocolIdent.Proofs.Json.IdentMap
import ProtocolIdent.Proofs.Format.Padding
import ProtocolIdent.Proofs.Format.Template
import ProtocolIdent.Proofs.Format.Hexadecimal
import ProtocolIdent.Proofs.Log
import ProtocolIdent.Proofs.Report.FromEnd
import ProtocolIdent.Proofs.Session.Log
import ProtocolIdent.Proofs.CommandLine.Log
