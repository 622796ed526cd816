import IDWDetector.Core.Recording
import IDWDetector.Hunter.AllocFiles
import IDWDetector.Hunter.Classification
import IDWDetector.Hunter.Common
import IDWDetector.Hunter.Ordering
import IDWDetector.Hunter.Pegging
import IDWDetector.Hunter.Pricing
import IDWDetector.Hunter.Selection
import IDWDetector.Hunter.Totality
import IDWDetector.Replay.Draws
import IDWDetector.Replay.Epochs
import IDWDetector.Replay.ForkStat
import IDWDetector.Replay.StepLoop
import IDWDetector.Replay.Tasks
import IDWDetector.Research.BlockReads
import IDWDetector.Research.Canonical
import IDWDetector.Research.Keys
import IDWDetector.Research.Migration
import IDWDetector.Research.Shutdown
import IDWDetector.Research.Upgrade
import IDWDetector.State.Copy
