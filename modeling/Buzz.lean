import Buzz.WakeChain
import Buzz.WatermarkSafety
import Buzz.AgentArgs
import Buzz.McpRestart
import Buzz.PairingSafety
import Buzz.PairingAtomic
import Buzz.GitPerms
import Buzz.Engram
import Buzz.EngramHeads
import Buzz.HistoryWindow
import Buzz.OlderPages
import Buzz.ReadState
import Buzz.ThreadRefresh
import Buzz.SendOutcomes
import Buzz.AgentCancel
import Buzz.AgentSteer
import Buzz.AgentHistory
import Buzz.RuntimeReconcile
import Buzz.StoreHalves
import Buzz.SecretStoreSafety
import Buzz.SecretStoreWipe
import Buzz.GroupBindingSafety
import Buzz.SymphonyAttach
import Buzz.CompanySafety
import Buzz.CompanyGroups
import Buzz.SpawnBadge
import Buzz.GroupValidation
import Buzz.BindOutcome
import Buzz.AcpTurns
import Buzz.HistoryExact
import Buzz.HandoffGate
import Buzz.HandoffTurn
import Buzz.HandoffPrompt
import Buzz.ToolRoundProgress
import Buzz.RefPatterns
import Buzz.Utf8Offsets
import Buzz.PairingQr
import Buzz.EngramRefs
import Buzz.StillImages
import Buzz.AnimatedImages
import Buzz.VideoBoxes
import Buzz.ElisionMarkers
import Buzz.SkillFiles
import Buzz.TimelineProjection
import Buzz.ThreadBadges
import Buzz.BucketIndex
import Buzz.ThreadCounts
import Buzz.TimelineKeys
import Buzz.PlainTextCaret
import Buzz.ReadTimeRuns
import Buzz.InstanceIds
import Buzz.PersonaPack
import Buzz.ReservedEnv
import Buzz.PersonaFold
import Buzz.DraftReload
import Buzz.TurnArrivals
import Buzz.CompanyRuns
