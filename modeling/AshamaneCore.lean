import AshamaneCore.Game.PacketStream
import AshamaneCore.Game.SwapReferences
import AshamaneCore.Game.PoolRounds
import AshamaneCore.Game.QuestPools
import AshamaneCore.Common.EventMapGroups
import AshamaneCore.Common.EventMapPhases
import AshamaneCore.Common.TaskOrder
import AshamaneCore.Common.EventLifecycle
import AshamaneCore.Game.LfgAnnouncements
import AshamaneCore.Game.GroupSubGroups
import AshamaneCore.Game.RollOutcomes
import AshamaneCore.Game.RollRemoval
import AshamaneCore.Game.GuildLog
import AshamaneCore.Game.GuildAuthority
import AshamaneCore.Game.GuildBankMoves
import AshamaneCore.Game.GuildLimits
import AshamaneCore.Game.QueueRuns
import AshamaneCore.Game.QueueBalance
import AshamaneCore.Game.AuctionBatches
import AshamaneCore.Game.LootDisplayRuns
import AshamaneCore.Game.TradeAgreement
import AshamaneCore.Game.MapManager
import AshamaneCore.Game.CalendarIds
import AshamaneCore.Game.ChannelRuns
import AshamaneCore.Game.SessionPackets
import AshamaneCore.Game.ResetSteps
import AshamaneCore.Game.InstanceResets
import AshamaneCore.Game.ObjectGuidPacket
import AshamaneCore.Shared.PrefixedStrings
import AshamaneCore.Shared.BackPatching
import AshamaneCore.Game.GameEventMgr
import AshamaneCore.Game.MotionRuns
import AshamaneCore.Game.PoolRecursion
import AshamaneCore.Game.CategoryCooldowns
import AshamaneCore.Game.SpellCharges
import AshamaneCore.Game.LfgRoleSearch
import AshamaneCore.Game.VictimChoice
import AshamaneCore.Game.LooterTurns
import AshamaneCore.Game.GuildValidation
import AshamaneCore.Game.AuctionReplication
import AshamaneCore.Game.CalendarRemoval
import AshamaneCore.Game.LootRecursion
import AshamaneCore.Game.AutoStoreDelivery
import AshamaneCore.Game.DestroyItemLoops
import AshamaneCore.Common.DB2CopiesMeant
import AshamaneCore.Common.DB2SparseTables
import AshamaneCore.Game.PlayerTaxi
import AshamaneCore.Game.TaxiPathGraph
import AshamaneCore.Game.ResetTimes
import AshamaneCore.Game.ReputationReloads
import AshamaneCore.Game.ConditionEvaluation
import AshamaneCore.Game.CriteriaSums
import AshamaneCore.Game.BackpackSize
import AshamaneCore.Game.ItemUpdateQueue
import AshamaneCore.Game.BuybackSlots
import AshamaneCore.Game.CurrencyRuns
import AshamaneCore.Game.CurrencySaves
import AshamaneCore.Common.TimeStrings
import AshamaneCore.Common.Utf8Truncate
import AshamaneCore.Shared.References
import AshamaneCore.Common.MPSCQueue
import AshamaneCore.Game.PacketSending
import AshamaneCore.Game.DataFields
