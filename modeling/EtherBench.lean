import EtherBench.Main
import EtherBench.Proofs.Command.Exits
import EtherBench.Proofs.Hub.Echo
import EtherBench.Proofs.Message.Outbox
import EtherBench.Proofs.Multiplexer.Confined
import EtherBench.Proofs.Multiplexer.ConsoleEnd
import EtherBench.Proofs.Multiplexer.Fairness
import EtherBench.Proofs.Multiplexer.RestoredTag
import EtherBench.Proofs.Multiplexer.ToolOutput
import EtherBench.Proofs.Switch.Commands
import EtherBench.Proofs.Switch.Copies
import EtherBench.Proofs.Switch.Delivery
import EtherBench.Proofs.Switch.Learning
import EtherBench.Proofs.Tool.FailingOutput
import EtherBench.Proofs.Switch.Undivided
import EtherBench.Proofs.Message.Buffered
