import OtaRecovery.Base.Strings
import OtaRecovery.Base.ParseInt
import OtaRecovery.Base.Properties
import OtaRecovery.Install.Package
import OtaRecovery.Install.Gate
import OtaRecovery.Install.Command
import OtaRecovery.Install.Supervisor
import OtaRecovery.Install.Protocol
import OtaRecovery.Install.Driver
import OtaRecovery.Verifier.ReadBlocks
import OtaRecovery.Verifier.Main
